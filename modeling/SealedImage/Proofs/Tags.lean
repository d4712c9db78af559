import Mathlib.Tactic.Common
import SealedImage.Proofs.BlockCipher
import SealedImage.Proofs.GaloisField
import SealedImage.Proofs.Spans

/-!
# What a tag depends on

A change in one block of a text carries through the polynomial of the tag, because every step behind it
multiplies by the same element, which is not zero (`Gcm.hash_ne`). So ciphertexts that differ in one block
have different tags, and so have different initialization vectors, whose counters differ.
-/

namespace SealedImage

namespace Gcm

variable {h : BitVec 128}

/-- One value behind the same blocks comes from one value before them. -/
lemma foldl_injective (hne : h ≠ 0) (blocks : List (BitVec 128)) {y y' : BitVec 128}
    (heq : blocks.foldl (fun y x => mul (y ^^^ x) h) y = blocks.foldl (fun y x => mul (y ^^^ x) h) y') :
    y = y' := by
  induction blocks generalizing y y' with
  | nil => exact heq
  | cons x blocks ih =>
    have hstep : mul (y ^^^ x) h = mul (y' ^^^ x) h := ih heq
    exact (BitVec.xor_left_inj _).mp (mul_right_injective hne hstep)

/-- Two lists that differ in one block have different hashes. -/
lemma hash_ne (hne : h ≠ 0) {b b' : BitVec 128} (hb : b ≠ b') (first rest : List (BitVec 128)) :
    hash h (first ++ b :: rest) ≠ hash h (first ++ b' :: rest) := by
  intro heq
  unfold hash at heq
  rw [List.foldl_append, List.foldl_append, List.foldl_cons, List.foldl_cons] at heq
  have hstep := mul_right_injective hne (foldl_injective hne rest heq)
  exact hb ((BitVec.xor_right_inj _).mp hstep)

variable {f : BlockFunction} {iv iv' : Block 16} {ciphertext ciphertext' : Octets}

/-- The start counter tells initialization vectors apart. -/
lemma startCounter_ne (hne : f 0 ≠ 0) (hiv : iv ≠ iv') : startCounter f iv ≠ startCounter f iv' := by
  have hblock : toBlock iv.octets ≠ toBlock iv'.octets := by
    intro heq
    refine hiv (Block.ext (toBlock_injective iv.length_octets.le ?_ heq))
    rw [iv.length_octets, iv'.length_octets]
  have hhash := hash_ne hne hblock [] [lengthBlock 16]
  rwa [List.nil_append, List.nil_append] at hhash

lemma sum_eq_of_tag_eq (heq : tag f iv ciphertext = tag f iv' ciphertext') :
    f (startCounter f iv) ^^^ hash (f 0)
        ((Octets.pieces 16 ciphertext).map toBlock ++ [lengthBlock ciphertext.length]) =
      f (startCounter f iv') ^^^ hash (f 0)
        ((Octets.pieces 16 ciphertext').map toBlock ++ [lengthBlock ciphertext'.length]) := by
  have hoctets := congrArg Block.octets heq
  unfold tag at hoctets
  exact ofBlock_injective hoctets

lemma tag_ne_of_iv (hf : Function.Injective f) (hne : f 0 ≠ 0) (hiv : iv ≠ iv') :
    tag f iv ciphertext ≠ tag f iv' ciphertext := by
  intro heq
  have hmask := (BitVec.xor_left_inj _).mp (sum_eq_of_tag_eq heq)
  exact startCounter_ne hne hiv (hf hmask)

lemma tag_ne_of_ciphertext (hne : f 0 ≠ 0) {i : Nat}
    (hdiff : DiffersWithin ⟨16 * i, 16⟩ ciphertext ciphertext') :
    tag f iv ciphertext ≠ tag f iv ciphertext' := by
  intro heq
  have hhash := (BitVec.xor_right_inj _).mp (sum_eq_of_tag_eq heq)
  have hcount : ciphertext.length ≤ 16 * ((ciphertext.length + 16 - 1) / 16) := by omega
  obtain ⟨first, piece, piece', rest, hx, hy, hpiece, hlen, hle⟩ := hdiff.pieces hcount
  have hblock : toBlock piece ≠ toBlock piece' := fun hb => hpiece (toBlock_injective hle hlen.symm hb).symm
  unfold Octets.pieces at hhash
  rw [hdiff.length, hx, hy, List.map_append, List.map_append, List.map_cons, List.map_cons,
    List.append_assoc, List.append_assoc, List.cons_append, List.cons_append] at hhash
  exact hash_ne hne hblock _ _ hhash

end Gcm

end SealedImage
