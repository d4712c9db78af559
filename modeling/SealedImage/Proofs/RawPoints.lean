import Mathlib.Tactic.Common
import Mathlib.Tactic.LinearCombination
import SealedImage.Opening.Decrypt
import SealedImage.Proofs.GroupOrder
import SealedImage.Proofs.KeyAgreement

/-!
# Points as bare octets

`IsRawPoint` says of 64 octets alone that they write a point: both halves are numbers below the prime, and they
solve the equation of the curve over the integers modulo the prime. Decoding accepts these strings and no others,
encoding undoes it, and each point of the curve but the one at infinity has exactly one such string. A private key
therefore meets points of the curve alone.
-/

namespace SealedImage

namespace P256

/-- The number that the first half of the octets writes, most significant octet first. -/
def rawX (raw : Block 64) : Nat :=
  Octets.toNat (raw.octets.take 32)

/-- The number that the second half of the octets writes, most significant octet first. -/
def rawY (raw : Block 64) : Nat :=
  Octets.toNat (raw.octets.drop 32)

/-- The octets write two numbers below the prime that solve the equation of the curve. -/
structure IsRawPoint (raw : Block 64) : Prop where
  x_lt : rawX raw < prime
  y_lt : rawY raw < prime
  equation : (rawY raw : Coordinate) ^ 2 = (rawX raw : Coordinate) ^ 3 - 3 * rawX raw + constant

/-- The coefficients of the curve are those of the short equation with `-3` and the constant. -/
lemma equation_iff_short {x y : Coordinate} : weierstrass.Equation x y ↔ y ^ 2 = x ^ 3 - 3 * x + constant := by
  have hlinear : (linear : Coordinate) = -3 := by
    rw [linear, Nat.cast_sub (by decide), ZMod.natCast_self]
    norm_num
  rw [WeierstrassCurve.Affine.equation_iff]
  simp only [weierstrass, hlinear]
  constructor <;> intro h <;> linear_combination h

section Codec

variable {raw : Block 64} {k : PublicKey}

lemma isRawPoint_iff_onCurve : IsRawPoint raw ↔ OnCurve (rawX raw) (rawY raw) := by
  constructor
  · rintro ⟨hx, hy, hequation⟩
    have hcurve := Point.onCurve_of_equation (equation_iff_short.mpr hequation)
    rwa [ZMod.val_natCast, ZMod.val_natCast, Nat.mod_eq_of_lt hx, Nat.mod_eq_of_lt hy] at hcurve
  · intro h
    exact ⟨h.1, h.2.1, equation_iff_short.mp (Point.equation_of_onCurve h)⟩

/-- The octets of a key are the only ones that write its coordinates. -/
lemma raw_eq_iff : k.raw = raw ↔ k.x = rawX raw ∧ k.y = rawY raw := by
  constructor
  · rintro rfl
    exact ⟨k.toNat_raw.1.symm, k.toNat_raw.2.symm⟩
  · rintro ⟨hx, hy⟩
    have hhalf {half : Octets} (h : half.length = 32) : Octets.ofNat 32 (Octets.toNat half) = half := by
      rw [← h, Octets.ofNat_toNat]
    have hfirst : Octets.ofNat 32 (rawX raw) = raw.octets.take 32 := hhalf (by simp)
    have hsecond : Octets.ofNat 32 (rawY raw) = raw.octets.drop 32 := hhalf (by simp)
    apply Block.ext
    change Octets.ofNat 32 k.x ++ Octets.ofNat 32 k.y = raw.octets
    rw [hx, hy, hfirst, hsecond, List.take_append_drop]

lemma decodePoint_eq_ok_iff : decodePoint raw = .ok k ↔ k.raw = raw := by
  constructor
  · intro h
    unfold decodePoint PublicKey.ofRaw? PublicKey.ofCoordinates? at h
    split at h
    · rename_i found hfound
      split_ifs at hfound
      obtain rfl := Except.ok.inj h
      rw [← Option.some.inj hfound]
      exact raw_eq_iff.mpr ⟨rfl, rfl⟩
    · cases h
  · rintro rfl
    exact decodePoint_raw k

/-- What is refused is refused for one reason. -/
lemma decodePoint_eq_error_iff {e : Failure} :
    decodePoint raw = .error e ↔ ¬IsRawPoint raw ∧ e = .keyMaterial .invalidPoint := by
  rw [isRawPoint_iff_onCurve]
  unfold decodePoint PublicKey.ofRaw? PublicKey.ofCoordinates?
  by_cases h : OnCurve (rawX raw) (rawY raw)
  · have hdite : OnCurve (Octets.toNat (raw.octets.take 32)) (Octets.toNat (raw.octets.drop 32)) := h
    simp [hdite, h]
  · have hdite : ¬OnCurve (Octets.toNat (raw.octets.take 32)) (Octets.toNat (raw.octets.drop 32)) := h
    simp [hdite, h, eq_comm]

lemma exists_decodePoint_iff : (∃ k, decodePoint raw = .ok k) ↔ IsRawPoint raw := by
  constructor
  · rintro ⟨k, h⟩
    by_contra hnot
    rw [decodePoint_eq_error_iff.mpr ⟨hnot, rfl⟩] at h
    cases h
  · intro h
    cases hdecode : decodePoint raw with
    | ok k => exact ⟨k, rfl⟩
    | error e => exact absurd h (decodePoint_eq_error_iff.mp hdecode).1

lemma encodePoint_point (k : PublicKey) : encodePoint k.point = .ok k.raw := by
  have hpoint : PublicKey.ofPoint? k.point = some k := PublicKey.ofCoordinates?_self k
  rw [encodePoint, hpoint]

lemma encodePoint_eq_ok_iff : encodePoint k.point = .ok raw ↔ k.raw = raw := by
  rw [encodePoint_point, Except.ok.injEq]

lemma point_injective {k' : PublicKey} (h : k.point = k'.point) : k = k' := by
  cases k
  cases k'
  obtain ⟨rfl, rfl⟩ := Point.affine.inj h
  rfl

/-- Public keys are the points of the curve, without the one at infinity. -/
lemma exists_point_iff {P : WeierstrassCurve.Affine.Point weierstrass} :
    (∃ k : PublicKey, k.point = Point.ofCurve P) ↔ P ≠ 0 := by
  constructor
  · rintro ⟨k, hk⟩ rfl
    cases hk
  · intro hne
    cases P with
    | zero => exact absurd rfl hne
    | some x y h => exact ⟨⟨x.val, y.val, Point.onCurve_of_equation h.1⟩, rfl⟩

end Codec

end P256

section Recovery

variable {header : Header} {point : Block 64} {salt : Block 32}

lemma recoverContentKey_eccPrivate (h : header.keyBlob .ecc256 = .ecc point salt) (k : P256.SecretKey) :
    recoverContentKey header (.eccPrivate k) =
      (P256.decodePoint point).map fun peer => contentKey (k.agree peer) salt := by
  unfold recoverContentKey
  rw [show (KeyMaterial.eccPrivate k).scheme = .ecc256 from rfl, h]
  cases hpoint : P256.decodePoint point <;> simp [hpoint, bind, Except.bind, pure, Except.pure, Except.map]

/-- A private key on P-256 agrees with a point that the slot decodes to, or with none. -/
lemma recoverContentKey_eccPrivate_eq_ok_iff (h : header.keyBlob .ecc256 = .ecc point salt) {k : P256.SecretKey}
    {found : Block 32} : recoverContentKey header (.eccPrivate k) = .ok found ↔
      ∃ peer, P256.decodePoint point = .ok peer ∧ found = contentKey (k.agree peer) salt := by
  rw [recoverContentKey_eccPrivate h]
  cases P256.decodePoint point <;> simp [Except.map, eq_comm]

end Recovery

namespace P256

/-- Decoding bare octets is a bijection onto the points of the curve other than infinity. It accepts the strings
whose halves write coordinates below the prime on the curve, gives the key with these coordinates, and refuses
every other string as a fault of the key. Encoding undoes it: every key has octets, and they are the only ones that
decode to it. So each point of the curve but the one at infinity has exactly one string, and from a slot of an image
a private key agrees with the point that the slot writes, or with none. -/
theorem decodePoint_bijects_curve :
    (∀ raw, ((∃ k, decodePoint raw = .ok k) ↔ IsRawPoint raw) ∧
      (∀ k, decodePoint raw = .ok k → k.point = .affine (rawX raw) (rawY raw)) ∧
      (¬IsRawPoint raw → decodePoint raw = .error (.keyMaterial .invalidPoint))) ∧
    (∀ k : PublicKey, ∃ raw, encodePoint k.point = .ok raw) ∧
    (∀ (k : PublicKey) raw, decodePoint raw = .ok k ↔ encodePoint k.point = .ok raw) ∧
    (∀ k : PublicKey, ∃ P : weierstrass.Point, P ≠ 0 ∧ k.point = Point.ofCurve P) ∧
    (∀ P : weierstrass.Point, P ≠ 0 → ∃! raw, ∃ k, decodePoint raw = .ok k ∧ k.point = Point.ofCurve P) ∧
    ∀ (header : Header) (k : SecretKey) point salt, header.keyBlob .ecc256 = .ecc point salt →
      (∀ found, recoverContentKey header (.eccPrivate k) = .ok found ↔
        ∃ peer : PublicKey, encodePoint peer.point = .ok point ∧ found = contentKey (k.agree peer) salt) ∧
      (¬IsRawPoint point → recoverContentKey header (.eccPrivate k) = .error (.keyMaterial .invalidPoint)) := by
  refine ⟨fun raw => ⟨exists_decodePoint_iff, fun k h => ?_, fun hnot => decodePoint_eq_error_iff.mpr ⟨hnot, rfl⟩⟩,
    fun k => ⟨k.raw, encodePoint_point k⟩, fun k raw => decodePoint_eq_ok_iff.trans encodePoint_eq_ok_iff.symm,
    fun k => ?_, fun P hne => ?_, fun header k point salt hslot => ⟨fun found => ?_, fun hnot => ?_⟩⟩
  · obtain ⟨hx, hy⟩ := raw_eq_iff.mp (decodePoint_eq_ok_iff.mp h)
    rw [PublicKey.point, hx, hy]
  · obtain ⟨P, hP⟩ := Point.exists_ofCurve k.onCurve
    exact ⟨P, exists_point_iff.mp ⟨k, hP.symm⟩, hP.symm⟩
  · obtain ⟨k, hk⟩ := exists_point_iff.mpr hne
    refine ⟨k.raw, ⟨k, decodePoint_raw k, hk⟩, ?_⟩
    rintro raw ⟨k', hdecode, hk'⟩
    obtain rfl := point_injective (hk'.trans hk.symm)
    exact (decodePoint_eq_ok_iff.mp hdecode).symm
  · simp only [recoverContentKey_eccPrivate_eq_ok_iff hslot, decodePoint_eq_ok_iff, encodePoint_eq_ok_iff]
  · rw [recoverContentKey_eccPrivate hslot, decodePoint_eq_error_iff.mpr ⟨hnot, rfl⟩]
    rfl

/-- The curve has a point with first coordinate zero. -/
def sampleHeight : Nat := 0x66485c780e2f83d72433bd5d84a06bb6541c2af31dae871728bf856a174f93f4

/-- The octets of a point with first coordinate zero. -/
def sampleRaw : Block 64 :=
  (Block.ofNat 32 0).append (Block.ofNat 32 sampleHeight)

/-- The same residues, with a first coordinate that is not below the prime. -/
def sampleAlias : Block 64 :=
  (Block.ofNat 32 prime).append (Block.ofNat 32 sampleHeight)

/-- A second string for a point is refused, and so is a point off the curve. -/
theorem decodePoint_bijects_curve_sample :
    (∃ k, decodePoint sampleRaw = .ok k ∧ k.point = .affine 0 sampleHeight ∧ encodePoint k.point = .ok sampleRaw) ∧
    (rawY sampleAlias : Coordinate) ^ 2 = (rawX sampleAlias : Coordinate) ^ 3 - 3 * rawX sampleAlias + constant ∧
    decodePoint sampleAlias = .error (.keyMaterial .invalidPoint) ∧
    ∀ iv length tag salt k, recoverContentKey
      ⟨(KeyBlob.ecc (Block.replicate 64 1) salt).toSlot, iv, length, tag⟩ (.eccPrivate k) =
        .error (.keyMaterial .invalidPoint) := by
  obtain ⟨hraw, -, hencode, -, -, hrecover⟩ := decodePoint_bijects_curve
  have hcurve : IsRawPoint sampleRaw := isRawPoint_iff_onCurve.mpr (by decide +kernel)
  refine ⟨?_, ?_, ?_, fun iv length tag salt k => ?_⟩
  · obtain ⟨k, hk⟩ := (hraw sampleRaw).1.mpr hcurve
    have hpoint : Point.affine (rawX sampleRaw) (rawY sampleRaw) = .affine 0 sampleHeight := by decide +kernel
    exact ⟨k, hk, ((hraw sampleRaw).2.1 k hk).trans hpoint, (hencode k sampleRaw).mp hk⟩
  · have hx : (rawX sampleAlias : Coordinate) = rawX sampleRaw := by
      rw [ZMod.natCast_eq_natCast_iff']
      decide +kernel
    have hy : rawY sampleAlias = rawY sampleRaw := by decide +kernel
    rw [hx, hy]
    exact hcurve.equation
  · exact (hraw sampleAlias).2.2 fun h => absurd h.x_lt (by decide +kernel)
  · have hslot : Header.keyBlob ⟨(KeyBlob.ecc (Block.replicate 64 1) salt).toSlot, iv, length, tag⟩ .ecc256 =
        .ecc (Block.replicate 64 1) salt := KeyBlob.ofSlot_toSlot (.ecc (Block.replicate 64 1) salt)
    refine (hrecover _ k _ salt hslot).2 fun h => ?_
    exact absurd (isRawPoint_iff_onCurve.mp h) (by decide +kernel)

end P256

end SealedImage
