import Mathlib.Data.LawfulXor.Basic
import Mathlib.Data.List.Nodup
import Mathlib.Data.List.Perm.Subperm
import Mathlib.Logic.Function.Basic
import Mathlib.Tactic.Common
import SealedImage.Aes.Gcm
import SealedImage.Proofs.Codec
import SealedImage.Proofs.CounterMode

/-!
# The block function is injective

Every step of a round permutes the strings of 16 octets (`Permutes`): the substitution because no entry of
its table occurs twice, the rows because four rotations lead back, the columns because four mixings do. So
the block function of AES-256 never maps two blocks to one (`Aes.blockFunction_injective`).
-/

namespace SealedImage

namespace Aes

/-- A function keeps strings of one length apart, and keeps their length. -/
structure Permutes (n : Nat) (f : Octets → Octets) : Prop where
  length : ∀ xs, xs.length = n → (f xs).length = n
  injective : ∀ xs ys, xs.length = n → ys.length = n → f xs = f ys → xs = ys

lemma Permutes.comp {n : Nat} {f g : Octets → Octets} (hg : Permutes n g) (hf : Permutes n f) :
    Permutes n fun xs => g (f xs) := by
  refine ⟨fun xs hx => hg.length _ (hf.length xs hx), fun xs ys hx hy h => ?_⟩
  exact hf.injective xs ys hx hy (hg.injective _ _ (hf.length xs hx) (hf.length ys hy) h)

lemma permutes_map (n : Nat) {φ : UInt8 → UInt8} (h : Function.Injective φ) :
    Permutes n fun xs => xs.map φ := by
  refine ⟨fun xs hx => by rw [List.length_map, hx], fun xs ys _ _ heq => ?_⟩
  exact List.map_injective_iff.mpr h heq

/-- The number with a bit for every entry of a list. -/
def bitSet (xs : List Nat) : Nat :=
  xs.foldl (fun bits x => bits ||| 2 ^ x) 0

lemma testBit_foldl (xs : List Nat) (bits n : Nat) :
    (xs.foldl (fun bits x => bits ||| 2 ^ x) bits).testBit n = (bits.testBit n || decide (n ∈ xs)) := by
  induction xs generalizing bits with
  | nil => simp
  | cons x xs ih =>
    rw [List.foldl_cons, ih, Nat.testBit_or, Nat.testBit_two_pow, Bool.or_assoc]
    have hmem : decide (n ∈ x :: xs) = (decide (x = n) || decide (n ∈ xs)) := by
      simp only [List.mem_cons, Bool.decide_or, eq_comm]
    rw [hmem]

/-- As many entries as there are numbers, and no number missing, so none occurs twice. -/
lemma nodup_of_bitSet {xs : List Nat} (hlen : xs.length = 256) (h : bitSet xs = 2 ^ 256 - 1) : xs.Nodup := by
  have hmem : List.range 256 ⊆ xs := by
    intro n hn
    have hbit : (bitSet xs).testBit n = true := by
      rw [h, Nat.testBit_two_pow_sub_one]
      exact decide_eq_true (List.mem_range.mp hn)
    rw [bitSet, testBit_foldl, Nat.zero_testBit, Bool.false_or] at hbit
    exact of_decide_eq_true hbit
  have hperm : (List.range 256).Perm xs :=
    (List.nodup_range.subperm hmem).perm_of_length_le (by rw [hlen, List.length_range])
  exact hperm.nodup_iff.mp List.nodup_range

lemma length_substitutionTable : substitutionTable.toList.length = 256 := by
  decide +kernel

lemma nodup_substitutionTable : substitutionTable.toList.Nodup := by
  have hbits : bitSet (substitutionTable.toList.map UInt8.toNat) = 2 ^ 256 - 1 := by decide +kernel
  have hlen : (substitutionTable.toList.map UInt8.toNat).length = 256 := by
    rw [List.length_map, length_substitutionTable]
  exact (nodup_of_bitSet hlen hbits).of_map

lemma substitute_injective : Function.Injective substitute := by
  have hlt : ∀ x : UInt8, x.toNat < substitutionTable.toList.length := by
    intro x
    rw [length_substitutionTable]
    exact x.toNat_lt
  have hget : ∀ x, substitute x = substitutionTable.toList.get ⟨x.toNat, hlt x⟩ := by
    intro x
    rw [substitute, Array.getD_eq_getD_getElem?, ← Array.getElem?_toList, List.getElem?_eq_getElem (hlt x)]
    rfl
  intro x y h
  rw [hget, hget] at h
  have hindex : (⟨x.toNat, hlt x⟩ : Fin substitutionTable.toList.length) = ⟨y.toNat, hlt y⟩ :=
    nodup_substitutionTable.injective_get h
  exact UInt8.toNat.inj (Fin.mk.inj hindex)

lemma permutes_add {n : Nat} {key : Octets} (hkey : key.length = n) : Permutes n fun xs => add xs key := by
  refine ⟨fun xs hx => by simp [add, hx, hkey], fun xs ys hx hy h => ?_⟩
  have htwice : ∀ zs : Octets, zs.length = n → add (add zs key) key = zs := by
    intro zs hz
    exact Gcm.zipWith_xor_zipWith_xor zs key (by omega)
  rw [← htwice xs hx, h, htwice ys hy]

/-- After four rotations every octet is back in its place. -/
lemma permutes_shiftRows : Permutes 16 shiftRows := by
  refine ⟨fun xs _ => by simp [shiftRows], fun xs ys hx hy h => ?_⟩
  apply List.ext_getElem (hx.trans hy.symm)
  intro j hj _
  rw [hx] at hj
  let i := (j + j % 4 * 12) % 16
  have hi : i < 16 := Nat.mod_lt _ (by decide)
  have hback : (i + i % 4 * 4) % 16 = j := by
    have hall : ∀ j < 16, ((j + j % 4 * 12) % 16 + (j + j % 4 * 12) % 16 % 4 * 4) % 16 = j := by decide
    exact hall j hj
  have hget : (shiftRows xs)[i]? = (shiftRows ys)[i]? := by rw [h]
  simp only [shiftRows, List.getElem?_map, List.getElem?_range hi, Option.map_some, hback,
    Option.some.injEq] at hget
  rwa [List.getD_eq_getElem?_getD, List.getD_eq_getElem?_getD, List.getElem?_eq_getElem (by omega),
    List.getElem?_eq_getElem (by omega)] at hget

lemma xor_left_comm (x y z : UInt8) : x ^^^ (y ^^^ z) = y ^^^ (x ^^^ z) := by
  rw [← UInt8.xor_assoc, UInt8.xor_comm x y, UInt8.xor_assoc]

lemma lt_iff_msb (x : UInt8) : x < 0x80 ↔ x.toBitVec.msb = false := by
  rw [BitVec.msb_eq_decide, UInt8.lt_iff_toNat_lt, decide_eq_false_iff_not, Nat.not_le]
  rfl

lemma timesX_xor (x y : UInt8) : timesX (x ^^^ y) = timesX x ^^^ timesX y := by
  have hmsb : (x ^^^ y).toBitVec.msb = (x.toBitVec.msb ^^ y.toBitVec.msb) := by
    rw [UInt8.toBitVec_xor, BitVec.msb_xor]
  simp only [timesX, lt_iff_msb, hmsb, UInt8.shiftLeft_xor]
  cases x.toBitVec.msb with
  | false =>
    cases y.toBitVec.msb with
    | false => simp
    | true => simp [UInt8.xor_assoc]
  | true =>
    cases y.toBitVec.msb with
    | false => simp [UInt8.xor_assoc, UInt8.xor_comm, xor_left_comm]
    | true => simp [UInt8.xor_comm, xor_left_comm]

lemma mixColumn_mixColumn (a b c d : UInt8) :
    mixColumn (mixColumn [a, b, c, d]) =
      [timesX (timesX a) ^^^ a ^^^ timesX (timesX c), timesX (timesX b) ^^^ b ^^^ timesX (timesX d),
        timesX (timesX a) ^^^ timesX (timesX c) ^^^ c, timesX (timesX b) ^^^ timesX (timesX d) ^^^ d] := by
  simp only [mixColumn, timesX_xor]
  simp [UInt8.xor_assoc, UInt8.xor_comm, xor_left_comm]

/-- After four mixings every column is back. -/
lemma permutes_mixColumn : Permutes 4 mixColumn := by
  have hfour : ∀ xs : Octets, xs.length = 4 → mixColumn (mixColumn (mixColumn (mixColumn xs))) = xs := by
    intro xs hx
    obtain ⟨a, b, c, d, rfl⟩ : ∃ a b c d, xs = [a, b, c, d] := by
      match xs, hx with
      | [a, b, c, d], _ => exact ⟨a, b, c, d, rfl⟩
    rw [mixColumn_mixColumn, mixColumn_mixColumn]
    simp only [timesX_xor]
    simp [UInt8.xor_assoc, UInt8.xor_comm, xor_left_comm]
  refine ⟨fun xs hx => ?_, fun xs ys hx hy h => ?_⟩
  · match xs, hx with
    | [a, b, c, d], _ => rfl
  · rw [← hfour xs hx, h, hfour ys hy]

/-- A permutation of pieces, piece after piece. -/
lemma permutes_pieces {size : Nat} {f : Octets → Octets} (hf : Permutes size f) (count : Nat) :
    Permutes (size * count) fun xs => (Octets.piecesOf size count xs).flatMap f := by
  induction count with
  | zero =>
    refine ⟨fun xs _ => rfl, fun xs ys hx hy _ => ?_⟩
    rw [List.length_eq_zero_iff.mp hx, List.length_eq_zero_iff.mp hy]
  | succ count ih =>
    have htake : ∀ xs : Octets, xs.length = size * (count + 1) → (xs.take size).length = size := by
      intro xs hx
      rw [List.length_take, hx, Nat.mul_succ]
      omega
    have hdrop : ∀ xs : Octets, xs.length = size * (count + 1) → (xs.drop size).length = size * count := by
      intro xs hx
      rw [List.length_drop, hx, Nat.mul_succ]
      omega
    refine ⟨fun xs hx => ?_, fun xs ys hx hy h => ?_⟩
    · simp only [Octets.piecesOf, List.flatMap_cons, List.length_append]
      rw [hf.length _ (htake xs hx), ih.length _ (hdrop xs hx), Nat.mul_succ, Nat.add_comm]
    · simp only [Octets.piecesOf, List.flatMap_cons] at h
      have hlen : (f (xs.take size)).length = (f (ys.take size)).length := by
        rw [hf.length _ (htake xs hx), hf.length _ (htake ys hy)]
      obtain ⟨hfirst, hrest⟩ := List.append_inj h hlen
      rw [← List.take_append_drop size xs, ← List.take_append_drop size ys,
        hf.injective _ _ (htake xs hx) (htake ys hy) hfirst,
        ih.injective _ _ (hdrop xs hx) (hdrop ys hy) hrest]

lemma permutes_mixColumns : Permutes 16 mixColumns := by
  have h := permutes_pieces permutes_mixColumn 4
  refine ⟨fun xs hx => ?_, fun xs ys hx hy heq => ?_⟩
  · unfold mixColumns Octets.pieces
    rw [hx]
    exact h.length xs hx
  · unfold mixColumns Octets.pieces at heq
    rw [hx, hy] at heq
    exact h.injective xs ys hx hy heq

/-- The rounds permute the strings of 16 octets, whatever the round keys of that length are. -/
lemma permutes_rounds {keys : List Octets} (hkeys : ∀ key ∈ keys, key.length = 16) :
    Permutes 16 (rounds keys) := by
  have hrow : Permutes 16 fun state => shiftRows (state.map substitute) :=
    permutes_shiftRows.comp (permutes_map 16 substitute_injective)
  induction keys with
  | nil => exact ⟨fun _ hx => hx, fun _ _ _ _ h => h⟩
  | cons key keys ih =>
    have hadd : Permutes 16 fun state => add state key := permutes_add (hkeys key List.mem_cons_self)
    have hrest := ih fun k hk => hkeys k (List.mem_cons_of_mem _ hk)
    cases keys with
    | nil => exact hadd.comp hrow
    | cons next keys => exact hrest.comp (hadd.comp (permutes_mixColumns.comp hrow))

lemma permutes_encryptWith {keys : List Octets} (hkeys : ∀ key ∈ keys, key.length = 16) :
    Permutes 16 (encryptWith keys) := by
  cases keys with
  | nil => exact ⟨fun _ hx => hx, fun _ _ _ _ h => h⟩
  | cons first rest =>
    have hadd : Permutes 16 fun block => add block first := permutes_add (hkeys first List.mem_cons_self)
    exact (permutes_rounds fun key hk => hkeys key (List.mem_cons_of_mem _ hk)).comp hadd

section KeySchedule

variable {latest : List Octets}

lemma length_nextWord (hcount : 8 ≤ latest.length) (hwords : ∀ w ∈ latest, w.length = 4) :
    (nextWord latest).length = 4 := by
  have hword : ∀ i < 8, (latest.getD i []).length = 4 := by
    intro i hi
    rw [List.getD_eq_getElem?_getD, List.getElem?_eq_getElem (by omega)]
    exact hwords _ (List.getElem_mem _)
  have hlast := hword 0 (by decide)
  have holder := hword 7 (by decide)
  unfold nextWord add
  dsimp only
  generalize latest.getD 0 [] = last at hlast ⊢
  generalize latest.getD 7 [] = older at holder ⊢
  split_ifs
  · simp [hlast, holder]
  · simp [hlast, holder]
  · simp [hlast, holder]

lemma extendKey_words (count : Nat) (hcount : 8 ≤ latest.length) (hwords : ∀ w ∈ latest, w.length = 4) :
    (extendKey count latest).length = latest.length + count ∧ ∀ w ∈ extendKey count latest, w.length = 4 := by
  induction count generalizing latest with
  | zero => exact ⟨rfl, hwords⟩
  | succ count ih =>
    have hnext : ∀ w ∈ nextWord latest :: latest, w.length = 4 := by
      intro w hw
      rcases List.mem_cons.mp hw with rfl | hw
      · exact length_nextWord hcount hwords
      · exact hwords w hw
    obtain ⟨hlen, hall⟩ := ih (by simp; omega) hnext
    refine ⟨?_, hall⟩
    rw [extendKey, hlen, List.length_cons]
    omega

end KeySchedule

lemma length_of_mem_piecesOf {size count : Nat} {xs piece : Octets} (hx : size * count ≤ xs.length)
    (h : piece ∈ Octets.piecesOf size count xs) : piece.length = size := by
  induction count generalizing xs with
  | zero => cases h
  | succ count ih =>
    rw [Nat.mul_succ] at hx
    rcases List.mem_cons.mp h with rfl | h
    · rw [List.length_take]
      omega
    · exact ih (by rw [List.length_drop]; omega) h

lemma length_piecesOf (size count : Nat) (xs : Octets) : (Octets.piecesOf size count xs).length = count := by
  induction count generalizing xs with
  | zero => rfl
  | succ count ih => rw [Octets.piecesOf, List.length_cons, ih]

lemma length_of_mem_roundKeys {key : Block 32} {k : Octets} (h : k ∈ roundKeys key) : k.length = 16 := by
  let words := (Octets.pieces 4 key.octets).reverse
  have hpieces : Octets.pieces 4 key.octets = Octets.piecesOf 4 8 key.octets := by
    unfold Octets.pieces
    rw [key.length_octets]
  have hcount : words.length = 8 := by
    rw [List.length_reverse, hpieces, length_piecesOf]
  have hwords : ∀ w ∈ words, w.length = 4 := by
    intro w hw
    rw [List.mem_reverse, hpieces] at hw
    exact length_of_mem_piecesOf (by rw [key.length_octets]) hw
  obtain ⟨hlen, hall⟩ := extendKey_words 52 (by omega) hwords
  have hflat : (extendKey 52 words).reverse.flatten.length = 240 := by
    have hsum : ((extendKey 52 words).reverse.map List.length) = List.replicate 60 4 := by
      rw [List.eq_replicate_iff]
      refine ⟨by rw [List.length_map, List.length_reverse, hlen, hcount], fun n hn => ?_⟩
      obtain ⟨w, hw, rfl⟩ := List.mem_map.mp hn
      exact hall w (List.mem_reverse.mp hw)
    rw [List.length_flatten, hsum]
    rfl
  have hkeys : roundKeys key = Octets.piecesOf 16 15 (extendKey 52 words).reverse.flatten := by
    unfold roundKeys
    rw [Octets.pieces, hflat]
  rw [hkeys] at h
  exact length_of_mem_piecesOf (by rw [hflat]) h

end Aes

namespace Gcm

lemma toBlock_injective {xs ys : Octets} (hx : xs.length ≤ 16) (hlen : xs.length = ys.length)
    (h : toBlock xs = toBlock ys) : xs = ys := by
  have hlt : ∀ zs : Octets, zs.length ≤ 16 →
      Octets.toNat (zs ++ List.replicate (16 - zs.length) 0) < 2 ^ 128 := by
    intro zs hz
    have hfill : (zs ++ List.replicate (16 - zs.length) (0 : UInt8)).length = 16 := by
      rw [List.length_append, List.length_replicate]
      omega
    have hbound := Octets.toNat_lt (zs ++ List.replicate (16 - zs.length) 0)
    rw [hfill] at hbound
    exact hbound
  have hnat := congrArg BitVec.toNat h
  unfold toBlock at hnat
  rw [BitVec.toNat_ofNat, BitVec.toNat_ofNat, Nat.mod_eq_of_lt (hlt xs hx),
    Nat.mod_eq_of_lt (hlt ys (hlen ▸ hx)), hlen] at hnat
  exact List.append_cancel_right (Octets.toNat_injective (by simp [hlen]) hnat)

lemma ofBlock_injective {a b : BitVec 128} (h : ofBlock a = ofBlock b) : a = b := by
  have hnat := congrArg Octets.toNat h
  unfold ofBlock at hnat
  rw [Octets.toNat_ofNat_of_lt a.isLt, Octets.toNat_ofNat_of_lt b.isLt] at hnat
  exact BitVec.eq_of_toNat_eq hnat

end Gcm

/-- Under one key, no two blocks have one image. -/
theorem Aes.blockFunction_injective (key : Block 32) : Function.Injective (Aes.blockFunction key) := by
  intro a b h
  have hpermutes := Aes.permutes_encryptWith fun k (hk : k ∈ Aes.roundKeys key) => Aes.length_of_mem_roundKeys hk
  have hlen : ∀ c, (Aes.encryptWith (Aes.roundKeys key) (Gcm.ofBlock c)).length = 16 := fun c =>
    hpermutes.length _ (Gcm.length_ofBlock c)
  have hblock : Gcm.toBlock (Aes.encryptWith (Aes.roundKeys key) (Gcm.ofBlock a)) =
      Gcm.toBlock (Aes.encryptWith (Aes.roundKeys key) (Gcm.ofBlock b)) := h
  have heq := Gcm.toBlock_injective (hlen a).le ((hlen a).trans (hlen b).symm) hblock
  exact Gcm.ofBlock_injective
    (hpermutes.injective _ _ (Gcm.length_ofBlock a) (Gcm.length_ofBlock b) heq)

end SealedImage
