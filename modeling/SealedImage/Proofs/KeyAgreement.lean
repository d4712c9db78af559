import Mathlib.Tactic.Common
import SealedImage.Key.Agreement
import SealedImage.Proofs.Codec
import SealedImage.Proofs.CurveGroup

/-!
# Both sides agree

A public key is read back from its octets, and two keys share one secret whichever of them computes it
(`SecretKey.agree_comm`).
-/

namespace SealedImage.P256

namespace PublicKey

lemma ofCoordinates?_self (k : PublicKey) : ofCoordinates? k.x k.y = some k := by
  unfold ofCoordinates?
  rw [dif_pos k.onCurve]

lemma prime_lt_pow : prime < 256 ^ 32 := by
  decide +kernel

/-- The halves of the octets write the coordinates. -/
lemma toNat_raw (k : PublicKey) :
    Octets.toNat (k.raw.octets.take 32) = k.x ∧ Octets.toNat (k.raw.octets.drop 32) = k.y := by
  have htake : k.raw.octets.take 32 = Octets.ofNat 32 k.x := List.take_left' (Octets.length_ofNat 32 k.x)
  have hdrop : k.raw.octets.drop 32 = Octets.ofNat 32 k.y := List.drop_left' (Octets.length_ofNat 32 k.x)
  rw [htake, hdrop]
  exact ⟨Octets.toNat_ofNat_of_lt (k.onCurve.1.trans prime_lt_pow),
    Octets.toNat_ofNat_of_lt (k.onCurve.2.1.trans prime_lt_pow)⟩

lemma ofRaw?_raw (k : PublicKey) : ofRaw? k.raw = some k := by
  rw [ofRaw?, k.toNat_raw.1, k.toNat_raw.2, ofCoordinates?_self]

lemma point_of_ofPoint? {p : Point} {k : PublicKey} (h : ofPoint? p = some k) : k.point = p := by
  cases p with
  | infinity => cases h
  | affine x y =>
    simp only [ofPoint?, ofCoordinates?] at h
    split_ifs at h
    rw [← Option.some.inj h]
    rfl

end PublicKey

lemma decodePoint_raw (k : PublicKey) : decodePoint k.raw = .ok k := by
  rw [decodePoint, PublicKey.ofRaw?_raw]

/-- Each of two keys computes the same secret from the public half of the other. -/
theorem SecretKey.agree_comm {a b : SecretKey} {pubA pubB : PublicKey} (ha : a.publicKey? = some pubA)
    (hb : b.publicKey? = some pubB) : a.agree pubB = b.agree pubA := by
  unfold agree
  rw [PublicKey.point_of_ofPoint? ha, PublicKey.point_of_ofPoint? hb, point, point, Point.mul_mul_comm]

end SealedImage.P256
