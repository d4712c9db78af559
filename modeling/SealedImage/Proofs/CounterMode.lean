import Mathlib.Tactic.Common
import SealedImage.Aes.Gcm

/-!
# Counter mode undoes itself

Counter mode adds the same octets to a text and to its ciphertext, whatever the block function is, so
decryption gives back what was encrypted (`Gcm.decrypt?_of_encrypt`).
-/

namespace SealedImage.Gcm

variable (f : BlockFunction)

@[simp] lemma length_ofBlock (b : BitVec 128) : (ofBlock b).length = 16 :=
  Octets.length_ofNat 16 _

/-- Adding the same octets twice changes nothing. -/
lemma zipWith_xor_zipWith_xor (xs mask : Octets) (h : xs.length ≤ mask.length) :
    List.zipWith (· ^^^ ·) (List.zipWith (· ^^^ ·) xs mask) mask = xs := by
  induction xs generalizing mask with
  | nil => rfl
  | cons x xs ih =>
    cases mask with
    | nil => simp at h
    | cons m mask =>
      have hx : x ^^^ m ^^^ m = x := by rw [UInt8.xor_assoc, UInt8.xor_self, UInt8.xor_zero]
      rw [List.zipWith_cons_cons, List.zipWith_cons_cons, hx, ih mask (by simpa using h)]

lemma length_cryptFrom (count : Nat) (counter : BitVec 128) (xs : Octets) (h : xs.length ≤ 16 * count) :
    (cryptFrom f count counter xs).length = xs.length := by
  induction count generalizing counter xs with
  | zero =>
    have hnil : xs.length = 0 := by omega
    simp [cryptFrom, hnil]
  | succ count ih =>
    rw [cryptFrom, List.length_append, List.length_zipWith, ih _ _ (by simp; omega)]
    simp
    omega

lemma cryptFrom_cryptFrom (count : Nat) (counter : BitVec 128) (xs : Octets)
    (h : xs.length ≤ 16 * count) :
    cryptFrom f count counter (cryptFrom f count counter xs) = xs := by
  induction count generalizing counter xs with
  | zero =>
    have hnil : xs = [] := List.length_eq_zero_iff.mp (by omega)
    rw [hnil]
    rfl
  | succ count ih =>
    have hrest : (xs.drop 16).length ≤ 16 * count := by simp; omega
    let first := List.zipWith (· ^^^ ·) (xs.take 16) (ofBlock (f counter))
    let rest := cryptFrom f count (next counter) (xs.drop 16)
    have hfirst : first.length = min 16 xs.length := by simp [first]
    have hlen : rest.length = xs.length - 16 := by simp [rest, length_cryptFrom f _ _ _ hrest]
    -- the first block ends where the text does, or is a whole one
    have htake : (first ++ rest).take 16 = first := by
      rw [List.take_append, List.take_of_length_le (by omega), List.take_eq_nil_iff.mpr, List.append_nil]
      by_cases hlong : 16 ≤ xs.length
      · left
        omega
      · right
        exact List.length_eq_zero_iff.mp (by omega)
    have hdrop : (first ++ rest).drop 16 = rest := by
      by_cases hlong : 16 ≤ xs.length
      · exact List.drop_left' (by omega)
      · have hnil : rest = [] := List.length_eq_zero_iff.mp (by omega)
        rw [hnil, List.append_nil, List.drop_eq_nil_iff]
        omega
    have hmask : (xs.take 16).length ≤ (ofBlock (f counter)).length := by
      rw [List.length_take, length_ofBlock]
      omega
    change List.zipWith (· ^^^ ·) ((first ++ rest).take 16) (ofBlock (f counter)) ++
      cryptFrom f count (next counter) ((first ++ rest).drop 16) = xs
    rw [htake, hdrop, ih _ _ hrest, zipWith_xor_zipWith_xor _ _ hmask, List.take_append_drop]

@[simp] lemma length_crypt (iv : Block 16) (text : Octets) : (crypt f iv text).length = text.length :=
  length_cryptFrom f _ _ _ (by omega)

@[simp] lemma crypt_crypt (iv : Block 16) (text : Octets) : crypt f iv (crypt f iv text) = text := by
  have hcount : (crypt f iv text).length = text.length := length_crypt f iv text
  unfold crypt at hcount ⊢
  rw [hcount]
  exact cryptFrom_cryptFrom f _ _ _ (by omega)

variable {f}

/-- A ciphertext with its own tag gives back the plaintext, and is as long. -/
theorem decrypt?_of_encrypt {iv : Block 16} {plaintext ciphertext : Octets} {t : Block 16}
    (h : encrypt f iv plaintext = some (ciphertext, t)) :
    decrypt? f iv ciphertext t = some plaintext ∧ ciphertext.length = plaintext.length := by
  unfold encrypt at h
  split_ifs at h with hlimit
  obtain ⟨rfl, rfl⟩ := Prod.mk.inj (Option.some.inj h)
  have hlen : (crypt f iv plaintext).length ≤ ciphertextLimit := by
    rw [length_crypt]
    exact Nat.le_trans hlimit (by decide)
  unfold decrypt?
  rw [if_pos ⟨hlen, rfl⟩, crypt_crypt]
  exact ⟨rfl, length_crypt f iv plaintext⟩

end SealedImage.Gcm
