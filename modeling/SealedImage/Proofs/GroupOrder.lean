import Mathlib.GroupTheory.OrderOfElement
import SealedImage.Proofs.CurveGroup

/-!
# The order of the base point

The base point has prime order (`addOrderOf_base`), and the secret scalars are the numbers from one up to that
order. No multiple by such a scalar is the point at infinity, and the others lie on the curve, so every secret
key has a public key (`SecretKey.publicKey?_eq`).
-/

namespace SealedImage.P256

open WeierstrassCurve.Affine

def orderCertificate : List Number.LucasRow :=
  [⟨order, 7, [(2, 4), (3, 1), (71, 1), (131, 1), (373, 1), (3407, 1), (17449, 1), (38189, 1), (187019741, 1),
      (622491383, 1), (1002328039319, 1), (2624747550333869278416773953, 1)]⟩,
    ⟨2624747550333869278416773953, 7, [(2, 6), (3, 2), (1297, 1), (16879, 1), (208150935158385979, 1)]⟩,
    ⟨208150935158385979, 2, [(2, 1), (3, 1), (11, 1), (43, 1), (127, 1), (3023, 1), (191039911, 1)]⟩,
    ⟨1002328039319, 19, [(2, 1), (126241, 1), (3969899, 1)]⟩, ⟨622491383, 5, [(2, 1), (311245691, 1)]⟩,
    ⟨311245691, 2, [(2, 1), (5, 1), (7, 1), (17, 1), (29, 2), (311, 1)]⟩,
    ⟨191039911, 3, [(2, 1), (3, 1), (5, 1), (41, 1), (155317, 1)]⟩,
    ⟨187019741, 2, [(2, 2), (5, 1), (9350987, 1)]⟩, ⟨9350987, 2, [(2, 1), (17, 1), (229, 1), (1201, 1)]⟩,
    ⟨3969899, 2, [(2, 1), (19, 1), (104471, 1)]⟩, ⟨155317, 5, [(2, 2), (3, 1), (7, 1), (43, 2)]⟩,
    ⟨126241, 7, [(2, 5), (3, 1), (5, 1), (263, 1)]⟩, ⟨104471, 11, [(2, 1), (5, 1), (31, 1), (337, 1)]⟩,
    ⟨38189, 2, [(2, 2), (9547, 1)]⟩, ⟨17449, 14, [(2, 3), (3, 1), (727, 1)]⟩,
    ⟨16879, 3, [(2, 1), (3, 1), (29, 1), (97, 1)]⟩, ⟨9547, 2, [(2, 1), (3, 1), (37, 1), (43, 1)]⟩,
    ⟨3407, 5, [(2, 1), (13, 1), (131, 1)]⟩, ⟨3023, 5, [(2, 1), (1511, 1)]⟩,
    ⟨1511, 11, [(2, 1), (5, 1), (151, 1)]⟩, ⟨1297, 10, [(2, 4), (3, 4)]⟩,
    ⟨1201, 11, [(2, 4), (3, 1), (5, 2)]⟩, ⟨727, 5, [(2, 1), (3, 1), (11, 2)]⟩,
    ⟨373, 2, [(2, 2), (3, 1), (31, 1)]⟩, ⟨337, 10, [(2, 4), (3, 1), (7, 1)]⟩,
    ⟨311, 17, [(2, 1), (5, 1), (31, 1)]⟩, ⟨263, 5, [(2, 1), (131, 1)]⟩, ⟨229, 6, [(2, 2), (3, 1), (19, 1)]⟩,
    ⟨151, 6, [(2, 1), (3, 1), (5, 2)]⟩, ⟨131, 2, [(2, 1), (5, 1), (13, 1)]⟩, ⟨127, 3, [(2, 1), (3, 2), (7, 1)]⟩,
    ⟨97, 5, [(2, 5), (3, 1)]⟩, ⟨71, 7, [(2, 1), (5, 1), (7, 1)]⟩, ⟨43, 3, [(2, 1), (3, 1), (7, 1)]⟩,
    ⟨41, 6, [(2, 3), (5, 1)]⟩, ⟨37, 2, [(2, 2), (3, 2)]⟩, ⟨31, 3, [(2, 1), (3, 1), (5, 1)]⟩,
    ⟨29, 2, [(2, 2), (7, 1)]⟩, ⟨19, 2, [(2, 1), (3, 2)]⟩, ⟨17, 3, [(2, 4)]⟩, ⟨13, 2, [(2, 2), (3, 1)]⟩,
    ⟨11, 2, [(2, 1), (5, 1)]⟩, ⟨7, 3, [(2, 1), (3, 1)]⟩, ⟨5, 2, [(2, 2)]⟩, ⟨3, 2, [(2, 1)]⟩]

theorem order_prime : order.Prime :=
  Number.prime_of_certifies orderCertificate (by decide +kernel) _ List.mem_cons_self

namespace Point

lemma mul_order_base : mul order base = .infinity := by
  decide +kernel

lemma ofCurve_eq_infinity_iff {P : weierstrass.Point} : ofCurve P = .infinity ↔ P = 0 := by
  cases P with
  | zero => exact ⟨fun _ => rfl, fun _ => rfl⟩
  | some x y h => exact ⟨fun h => (nomatch h), fun h => (nomatch h)⟩

/-- The order of the base point is the number below which the secret scalars are. -/
theorem addOrderOf_base {B : weierstrass.Point} (hB : ofCurve B = base) : addOrderOf B = order := by
  have : Fact order.Prime := ⟨order_prime⟩
  refine addOrderOf_eq_prime ?_ fun hzero => ?_
  · have hmul := mul_order_base
    rwa [← hB, mul_ofCurve, ofCurve_eq_infinity_iff] at hmul
  · rw [hzero] at hB
    cases hB

lemma mul_base_ne_infinity {k : Nat} (hpos : 0 < k) (hlt : k < order) : mul k base ≠ .infinity := by
  obtain ⟨B, hB⟩ := exists_base
  intro hinfinity
  rw [← hB, mul_ofCurve, ofCurve_eq_infinity_iff, ← addOrderOf_dvd_iff_nsmul_eq_zero, addOrderOf_base hB]
    at hinfinity
  exact absurd (Nat.le_of_dvd hpos hinfinity) (Nat.not_le.mpr hlt)

lemma onCurve_of_equation {x y : Coordinate} (h : weierstrass.Equation x y) : OnCurve x.val y.val := by
  refine ⟨ZMod.val_lt x, ZMod.val_lt y, ?_⟩
  rw [equation_iff] at h
  simp only [weierstrass] at h
  rw [cubic, mod_prime, mod_prime]
  refine congrArg ZMod.val ?_
  push_cast
  rw [ZMod.natCast_zmod_val, ZMod.natCast_zmod_val, ZMod.natCast_mod]
  push_cast
  rw [ZMod.natCast_zmod_val]
  linear_combination h

end Point

namespace SecretKey

lemma exists_publicKey (k : SecretKey) : ∃ pub, k.publicKey? = some pub := by
  obtain ⟨B, hB⟩ := Point.exists_base
  have hne := Point.mul_base_ne_infinity k.pos k.lt_order
  rw [publicKey?, point]
  rw [← hB, Point.mul_ofCurve] at hne ⊢
  cases hpoint : k.scalar • B with
  | zero => exact absurd (hpoint ▸ rfl) hne
  | some x y h =>
    have hcurve := Point.onCurve_of_equation h.1
    exact ⟨⟨x.val, y.val, hcurve⟩, dif_pos hcurve⟩

def publicKey (k : SecretKey) : PublicKey :=
  k.publicKey?.get (Option.isSome_iff_exists.mpr k.exists_publicKey)

/-- Every secret key has a public key. -/
theorem publicKey?_eq (k : SecretKey) : k.publicKey? = some k.publicKey :=
  (Option.some_get _).symm

end SecretKey

end SealedImage.P256
