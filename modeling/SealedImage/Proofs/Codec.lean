import Mathlib.Data.List.Basic
import Mathlib.Data.List.Induction
import Mathlib.Tactic.Common
import Mathlib.Tactic.NormNum
import Mathlib.Tactic.Ring
import SealedImage.Image.Container

/-!
# Reading what was written

Octet strings of one length and the numbers below the bound that the length sets determine each other
(`Octets.ofNat_toNat`, `Octets.toNat_injective`), and so do words and strings of four octets. A header, a key
blob and an image are read back from the octets that they were written as.
-/

namespace SealedImage

namespace Octets

lemma toNat_lt (xs : Octets) : toNat xs < 256 ^ xs.length := by
  induction xs using List.reverseRecOn with
  | nil => simp [toNat]
  | append_singleton xs x ih =>
    rw [toNat_append_singleton, List.length_append, List.length_singleton, Nat.pow_succ]
    have hx : x.toNat < 256 := x.toNat_lt
    omega

theorem ofNat_toNat (xs : Octets) : ofNat xs.length (toNat xs) = xs := by
  induction xs using List.reverseRecOn with
  | nil => rfl
  | append_singleton xs x ih =>
    have hx : x.toNat < 256 := x.toNat_lt
    have hdiv : (toNat xs * 256 + x.toNat) / 256 = toNat xs := by omega
    have hmod : (toNat xs * 256 + x.toNat) % 256 = x.toNat := by omega
    rw [List.length_append, List.length_singleton, ofNat, toNat_append_singleton, hdiv, hmod, ih,
      UInt8.ofNat_toNat]

lemma toNat_injective {xs ys : Octets} (hlen : xs.length = ys.length) (h : toNat xs = toNat ys) :
    xs = ys := by
  rw [← ofNat_toNat xs, hlen, h, ofNat_toNat]

theorem toNat_ofNat (count n : Nat) : toNat (ofNat count n) = n % 256 ^ count := by
  induction count generalizing n with
  | zero => simp [ofNat, toNat, Nat.mod_one]
  | succ count ih =>
    rw [ofNat, toNat_append_singleton, ih, Nat.pow_succ, Nat.mul_comm (256 ^ count) 256,
      Nat.mod_mul]
    have h : (UInt8.ofNat (n % 256)).toNat = n % 256 := by simp
    omega

lemma toNat_ofNat_of_lt {count n : Nat} (h : n < 256 ^ count) : toNat (ofNat count n) = n := by
  rw [toNat_ofNat, Nat.mod_eq_of_lt h]

lemma toNat_append (xs ys : Octets) : toNat (xs ++ ys) = toNat xs * 256 ^ ys.length + toNat ys := by
  induction ys using List.reverseRecOn with
  | nil => simp [toNat]
  | append_singleton ys y ih =>
    rw [← List.append_assoc, toNat_append_singleton, toNat_append_singleton, ih, List.length_append,
      List.length_singleton, Nat.pow_succ]
    ring

/-- A word has the number of its octets, the last octet first. -/
lemma toNat_toWordLE {xs : Octets} (h : xs.length ≤ 4) : (toWordLE xs).toNat = toNat xs.reverse := by
  induction xs with
  | nil => rfl
  | cons x xs ih =>
    rw [List.length_cons] at h
    have hlt : toNat xs.reverse < 256 ^ 3 :=
      Nat.lt_of_lt_of_le (toNat_lt _) (Nat.pow_le_pow_right (by decide) (by simp; omega))
    have hx : x.toNat < 2 ^ 8 := x.toNat_lt
    have hstep : toWordLE (x :: xs) = (toWordLE xs <<< 8) ||| x.toUInt32 := rfl
    have hword : (toWordLE xs <<< 8).toNat = toNat xs.reverse <<< 8 := by
      rw [UInt32.toNat_shiftLeft, ih (by omega), show UInt32.toNat 8 % 32 = 8 from rfl, Nat.mod_eq_of_lt]
      rw [Nat.shiftLeft_eq]
      omega
    rw [hstep, List.reverse_cons, toNat_append_singleton, UInt32.toNat_or, hword, UInt8.toNat_toUInt32,
      ← Nat.shiftLeft_add_eq_or_of_lt hx, Nat.shiftLeft_eq]

lemma toWordLE_injective {xs ys : Octets} (hx : xs.length = 4) (hy : ys.length = 4)
    (h : toWordLE xs = toWordLE ys) : xs = ys := by
  have hnat : toNat xs.reverse = toNat ys.reverse := by
    rw [← toNat_toWordLE (by omega), ← toNat_toWordLE (by omega), h]
  exact List.reverse_injective (toNat_injective (by simp [hx, hy]) hnat)

@[simp] lemma length_ofWordLE (w : UInt32) : (ofWordLE w).length = 4 := rfl

lemma toWordLE_ofWordLE (w : UInt32) : toWordLE (ofWordLE w) = w := by
  apply UInt32.toNat.inj
  rw [toNat_toWordLE (by simp)]
  have hw : w.toNat < 2 ^ 32 := w.toNat_lt
  simp [ofWordLE, toNat, Nat.shiftRight_eq_div_pow]
  omega

lemma take_drop_middle {before field after : Octets} {offset size : Nat} (hb : before.length = offset)
    (hf : field.length = size) : ((before ++ (field ++ after)).drop offset).take size = field := by
  rw [List.drop_left' hb, List.take_left' hf]

end Octets

namespace Header

variable {xs : Octets}

@[simp] lemma length_toOctets (h : Header) : h.toOctets.length = Layout.headerSize := by
  simp [toOctets]
  rfl

lemma parse_of_magic (hlen : Layout.magic.size ≤ xs.length)
    (hne : Octets.toWordLE (xs.take Layout.magic.size) ≠ magicNumber) :
    parse xs = .error (.invalidMagic (Octets.toWordLE (xs.take Layout.magic.size))) := by
  unfold parse checkMagic
  dsimp only
  rw [if_neg (Nat.not_lt.mpr hlen), if_neg hne]
  rfl

lemma parse_eq_ok_iff {header : Header} :
    parse xs = .ok header ↔ ∃ h : Layout.headerSize ≤ xs.length,
      Octets.toWordLE (xs.take Layout.magic.size) = magicNumber ∧ ofOctets xs h = header := by
  unfold parse checkMagic
  dsimp only
  by_cases hshort : xs.length < Layout.magic.size
  · rw [if_pos hshort]
    constructor
    · intro h
      cases h
    · rintro ⟨hlen, -⟩
      have hsize : Layout.magic.size ≤ Layout.headerSize := by decide
      omega
  · rw [if_neg hshort]
    by_cases hmagic : Octets.toWordLE (xs.take Layout.magic.size) = magicNumber
    · rw [if_pos hmagic]
      by_cases hlen : Layout.headerSize ≤ xs.length
      · simp [hlen, hmagic, bind, Except.bind, pure, Except.pure]
      · simp [hlen, bind, Except.bind, pure, Except.pure, throw, throwThe, MonadExceptOf.throw]
    · simp [hmagic, bind, Except.bind, throw, throwThe, MonadExceptOf.throw]

/-- A field is found behind as many octets as its offset says. -/
lemma take_drop_field {xs : Octets} {span : Span} (before field after : Octets)
    (hxs : xs = before ++ (field ++ after)) (hb : before.length = span.offset)
    (hf : field.length = span.size) : (xs.drop span.offset).take span.size = field := by
  rw [hxs]
  exact Octets.take_drop_middle hb hf

/-- Every field is found where it was written. -/
lemma ofOctets_toOctets (h : Header) (rest : Octets)
    (hlen : Layout.headerSize ≤ (h.toOctets ++ rest).length) : ofOctets (h.toOctets ++ rest) hlen = h := by
  let xs := h.toOctets ++ rest
  let magic := Octets.ofWordLE magicNumber
  let length := Octets.ofWordLE h.ciphertextLength
  let zeros := List.replicate Layout.reserved.size (0 : UInt8)
  have hslot : (xs.drop Layout.keySlot.offset).take Layout.keySlot.size = h.keySlot.octets := by
    apply take_drop_field magic _ (h.iv.octets ++ length ++ h.authTag.octets ++ zeros ++ rest)
    · simp [xs, toOctets, magic, length, zeros]
    · rfl
    · exact h.keySlot.length_octets
  have hiv : (xs.drop Layout.iv.offset).take Layout.iv.size = h.iv.octets := by
    apply take_drop_field (magic ++ h.keySlot.octets) _ (length ++ h.authTag.octets ++ zeros ++ rest)
    · simp [xs, toOctets, magic, length, zeros]
    · simp [magic]
      rfl
    · exact h.iv.length_octets
  have hlength : (xs.drop Layout.ciphertextLength.offset).take Layout.ciphertextLength.size = length := by
    apply take_drop_field (magic ++ h.keySlot.octets ++ h.iv.octets) _ (h.authTag.octets ++ zeros ++ rest)
    · simp [xs, toOctets, magic, length, zeros]
    · simp [magic]
      rfl
    · rfl
  have htag : (xs.drop Layout.authTag.offset).take Layout.authTag.size = h.authTag.octets := by
    apply take_drop_field (magic ++ h.keySlot.octets ++ h.iv.octets ++ length) _ (zeros ++ rest)
    · simp [xs, toOctets, magic, length, zeros]
    · simp [magic, length]
      rfl
    · exact h.authTag.length_octets
  unfold ofOctets
  congr 1
  · exact Block.ext hslot
  · exact Block.ext hiv
  · rw [show ((h.toOctets ++ rest).drop _).take _ = length from hlength]
    exact Octets.toWordLE_ofWordLE _
  · exact Block.ext htag

lemma parse_toOctets (h : Header) (rest : Octets) : parse (h.toOctets ++ rest) = .ok h := by
  have hlen : Layout.headerSize ≤ (h.toOctets ++ rest).length := by simp
  refine parse_eq_ok_iff.mpr ⟨hlen, ?_, ofOctets_toOctets h rest hlen⟩
  have hmagic : (h.toOctets ++ rest).take Layout.magic.size = Octets.ofWordLE magicNumber := by
    unfold toOctets
    simp only [List.append_assoc]
    exact List.take_left' rfl
  rw [hmagic, Octets.toWordLE_ofWordLE]

end Header

namespace Container

variable {xs : Octets}

/-- An image is a header with as many octets behind it as it tells. -/
lemma ofOctets_eq_ok_iff {container : Container} :
    ofOctets xs = .ok container ↔ ∃ header, Header.parse xs = .ok header ∧
      header.ciphertextLength.toNat = xs.length - Layout.headerSize ∧
      container = ⟨header, xs.drop Layout.headerSize⟩ := by
  unfold ofOctets
  cases Header.parse xs with
  | error e => simp [bind, Except.bind]
  | ok header =>
    simp only [bind, Except.bind, Except.ok.injEq, exists_eq_left']
    split_ifs with hlen
    · simp [pure, Except.pure, hlen, eq_comm]
    · simp [hlen]

lemma ofOctets_of_parse {e : Failure} (h : Header.parse xs = .error e) : ofOctets xs = .error e := by
  unfold ofOctets
  rw [h]
  rfl

lemma ofOctets_of_length {header : Header} (h : Header.parse xs = .ok header)
    (hne : header.ciphertextLength.toNat ≠ xs.length - Layout.headerSize) :
    ofOctets xs = .error (.header (.lengthMismatch header.ciphertextLength.toNat
      (xs.length - Layout.headerSize))) := by
  unfold ofOctets
  rw [h]
  simp only [bind, Except.bind]
  rw [if_neg hne]
  rfl

/-- An image is read back from its octets. -/
theorem ofOctets_toOctets (c : Container)
    (h : c.header.ciphertextLength.toNat = c.ciphertext.length) : ofOctets c.toOctets = .ok c := by
  refine ofOctets_eq_ok_iff.mpr ⟨c.header, Header.parse_toOctets c.header c.ciphertext, ?_, ?_⟩
  · simp [toOctets, h]
  · have hdrop : c.toOctets.drop Layout.headerSize = c.ciphertext :=
      List.drop_left' (Header.length_toOctets c.header)
    rw [hdrop]

end Container

namespace KeyBlob

/-- A key blob is read back from its slot under its own scheme. -/
theorem ofSlot_toSlot (blob : KeyBlob) : ofSlot blob.scheme blob.toSlot = blob := by
  cases blob with
  | rsa wrapped => rfl
  | ecc point salt =>
    let zeros := List.replicate Layout.eccReserved.size (0 : UInt8)
    have hslot : (ecc point salt).toSlot.octets = point.octets ++ salt.octets ++ zeros := rfl
    have hpoint : ((ecc point salt).toSlot.octets.drop 0).take 64 = point.octets := by
      rw [hslot, List.append_assoc, List.drop_zero]
      exact List.take_left' point.length_octets
    have hsalt : ((ecc point salt).toSlot.octets.drop 64).take 32 = salt.octets := by
      rw [hslot, List.append_assoc]
      exact Octets.take_drop_middle point.length_octets salt.length_octets
    unfold ofSlot
    simp only [scheme, ecc.injEq]
    exact ⟨Block.ext hpoint, Block.ext hsalt⟩

end KeyBlob

end SealedImage
