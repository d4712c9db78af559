import Mathlib.AlgebraicGeometry.EllipticCurve.Affine.Point
import Mathlib.FieldTheory.Finite.Basic
import SealedImage.P256.Key
import SealedImage.Proofs.Primality

/-!
# Multiples of the base point

The chords and tangents of `Point.add` are the group law of a Weierstrass curve over the integers modulo the
prime, on coordinates below the prime (`Point.add_ofCurve`), so doubling and adding computes multiples in the
group (`Point.mul_ofCurve`). Multiples of multiples of the base point therefore commute (`Point.mul_mul_comm`).
-/

namespace SealedImage.P256

open WeierstrassCurve.Affine

instance prime_fact : Fact prime.Prime :=
  ⟨prime_prime⟩

instance prime_neZero : NeZero prime :=
  ⟨prime_prime.ne_zero⟩

/-- The integers modulo the prime. -/
abbrev Coordinate : Type := ZMod prime

/-- The curve over the integers modulo the prime. -/
def weierstrass : WeierstrassCurve.Affine Coordinate where
  a₁ := 0
  a₂ := 0
  a₃ := 0
  a₄ := linear
  a₆ := constant

section Arithmetic

variable (a b : Coordinate) (m n : Nat)

lemma mod_prime (n : Nat) : n % prime = (n : Coordinate).val :=
  (ZMod.val_natCast prime n).symm

lemma sub_val : sub a.val b.val = (a - b).val := by
  have hb : b.val ≤ prime := (ZMod.val_lt b).le
  rw [sub, mod_prime, Nat.cast_add, Nat.cast_sub hb, ZMod.natCast_zmod_val, ZMod.natCast_zmod_val,
    ZMod.natCast_self, zero_sub, ← sub_eq_add_neg]

lemma inv_eq : inv n = ((n : Coordinate)⁻¹).val := by
  rw [inv, Number.powMod_eq, mod_prime, Nat.cast_pow]
  refine congrArg ZMod.val ?_
  by_cases hn : (n : Coordinate) = 0
  · rw [hn, inv_zero, zero_pow (by decide)]
  · apply eq_inv_of_mul_eq_one_left
    rw [← pow_succ]
    exact ZMod.pow_card_sub_one_eq_one hn

lemma two_ne_zero : (2 : Coordinate) ≠ 0 := by
  intro h
  have hdvd : prime ∣ 2 := (ZMod.natCast_eq_zero_iff 2 prime).mp (by exact_mod_cast h)
  exact absurd (Nat.le_of_dvd (by decide) hdvd) (by decide)

end Arithmetic

namespace Point

/-- A point of the curve in coordinates below the prime. -/
def ofCurve : weierstrass.Point → Point
  | .zero => .infinity
  | .some x y _ => .affine x.val y.val

/-- A line of a given slope meets the curve where the formulas of the curve say. -/
lemma onLine_val (slope x₁ y₁ x₂ : Coordinate) :
    onLine slope.val x₁.val y₁.val x₂.val =
      .affine (weierstrass.addX x₁ x₂ slope).val (weierstrass.addY x₁ x₂ y₁ slope).val := by
  have hx : weierstrass.addX x₁ x₂ slope = slope * slope - x₁ - x₂ := by
    simp only [addX, weierstrass]
    ring
  have hy : weierstrass.addY x₁ x₂ y₁ slope = slope * (x₁ - (slope * slope - x₁ - x₂)) - y₁ := by
    rw [addY, negAddY, negY, hx]
    simp only [weierstrass]
    ring
  unfold onLine
  dsimp only
  rw [← ZMod.val_mul, sub_val, sub_val, sub_val, ← ZMod.val_mul, sub_val, hx, hy]

lemma chord_val (x₁ y₁ x₂ y₂ : Coordinate) (hx : x₁ ≠ x₂) :
    sub y₂.val y₁.val * inv (sub x₂.val x₁.val) % prime = (weierstrass.slope x₁ x₂ y₁ y₂).val := by
  rw [slope_of_X_ne hx, sub_val, sub_val, inv_eq, ZMod.natCast_zmod_val, ← ZMod.val_mul, ← div_eq_mul_inv,
    ← neg_sub y₁ y₂, ← neg_sub x₁ x₂, neg_div_neg_eq]

lemma ne_negY {x y : Coordinate} (hy : y ≠ 0) : y ≠ weierstrass.negY x y := by
  intro h
  simp only [negY, weierstrass, zero_mul, sub_zero] at h
  have hdouble : 2 * y = 0 := by linear_combination h
  exact (mul_ne_zero two_ne_zero hy) hdouble

lemma tangent_val (x y : Coordinate) (hy : y ≠ 0) :
    (3 * (x.val * x.val) + linear) * inv (2 * y.val) % prime = (weierstrass.slope x x y y).val := by
  have hdenominator : y - weierstrass.negY x y = 2 * y := by
    simp only [negY, weierstrass]
    ring
  rw [slope_of_Y_ne rfl (ne_negY hy), hdenominator, inv_eq, mod_prime]
  refine congrArg ZMod.val ?_
  push_cast
  rw [ZMod.natCast_zmod_val, ZMod.natCast_zmod_val, ZMod.natCast_zmod_val, div_eq_mul_inv]
  simp only [weierstrass]
  ring

/-- Chords and tangents are the group law of the curve. -/
theorem add_ofCurve (P Q : weierstrass.Point) : add (ofCurve P) (ofCurve Q) = ofCurve (P + Q) := by
  cases P with
  | zero =>
    rw [show (WeierstrassCurve.Affine.Point.zero : weierstrass.Point) = 0 from rfl, zero_add]
    rfl
  | some x₁ y₁ h₁ =>
    cases Q with
    | zero =>
      rw [show (WeierstrassCurve.Affine.Point.zero : weierstrass.Point) = 0 from rfl, add_zero]
      rfl
    | some x₂ y₂ h₂ =>
      simp only [ofCurve, add]
      by_cases hx : x₁ = x₂
      · subst hx
        rw [if_pos rfl]
        by_cases hy : y₁.val = y₂.val ∧ y₁.val ≠ 0
        · obtain ⟨heq, hzero⟩ := hy
          obtain rfl := ZMod.val_injective prime heq
          have hne : y₁ ≠ 0 := fun h => hzero (by rw [h, ZMod.val_zero])
          rw [if_pos ⟨rfl, hzero⟩, tangent_val x₁ y₁ hne, onLine_val,
            WeierstrassCurve.Affine.Point.add_self_of_Y_ne (ne_negY hne)]
        · -- with one first coordinate, the second ones are equal or opposite
          have hneg : y₁ = weierstrass.negY x₁ y₂ := by
            rcases Y_eq_of_X_eq h₁.1 h₂.1 rfl with heq | hneg
            · subst heq
              have hzero : y₁ = 0 := by
                by_contra hne
                exact hy ⟨rfl, fun h => hne ((ZMod.val_eq_zero y₁).mp h)⟩
              simp [hzero, negY, weierstrass]
            · exact hneg
          rw [if_neg hy, WeierstrassCurve.Affine.Point.add_of_Y_eq rfl hneg]
      · have hval : x₁.val ≠ x₂.val := fun h => hx (ZMod.val_injective prime h)
        rw [if_neg hval, chord_val x₁ y₁ x₂ y₂ hx, onLine_val, WeierstrassCurve.Affine.Point.add_of_X_ne hx]

lemma mulFrom_ofCurve (bits k : Nat) (P : weierstrass.Point) (h : k < 2 ^ bits) :
    mulFrom bits k (ofCurve P) = ofCurve (k • P) := by
  induction bits generalizing k P with
  | zero =>
    have hk : k = 0 := by omega
    rw [hk, zero_nsmul]
    rfl
  | succ bits ih =>
    have hhalf : k / 2 < 2 ^ bits := by
      rw [Nat.pow_succ] at h
      omega
    have heven : (k / 2) • (P + P) = (2 * (k / 2)) • P := by rw [← two_nsmul, smul_smul, mul_comm]
    unfold mulFrom
    dsimp only
    rw [add_ofCurve, ih _ _ hhalf, heven, add_ofCurve]
    by_cases hodd : k % 2 = 1
    · rw [if_pos hodd, ← succ_nsmul, show 2 * (k / 2) + 1 = k by omega]
    · rw [if_neg hodd, show 2 * (k / 2) = k by omega]

/-- Doubling and adding computes multiples in the group. -/
theorem mul_ofCurve (k : Nat) (P : weierstrass.Point) : mul k (ofCurve P) = ofCurve (k • P) :=
  mulFrom_ofCurve _ _ _ (Number.lt_two_pow_bitLength k)

lemma equation_of_onCurve {x y : Nat} (h : OnCurve x y) : weierstrass.Equation (x : Coordinate) y := by
  have hmod : ((y * y : Nat) : Coordinate) = ((x * x * x + linear * x + constant : Nat) : Coordinate) := by
    have hcube : x * x % prime * x + linear * x + constant ≡ x * x * x + linear * x + constant [MOD prime] :=
      (((Nat.mod_modEq (x * x) prime).mul_right x).add_right _).add_right _
    rw [ZMod.natCast_eq_natCast_iff', h.2.2, cubic, hcube]
  rw [equation_iff]
  push_cast at hmod
  simp only [weierstrass]
  linear_combination hmod

/-- The curve has no singular point. -/
lemma discriminant_ne_zero : weierstrass.Δ ≠ 0 := by
  have hcast : weierstrass.Δ =
      ((prime - 16 * (4 * linear ^ 3 + 27 * constant ^ 2) % prime : Nat) : Coordinate) := by
    rw [Nat.cast_sub (Nat.mod_lt _ (by decide)).le, ZMod.natCast_self, ZMod.natCast_mod]
    simp only [WeierstrassCurve.Δ, WeierstrassCurve.b₂, WeierstrassCurve.b₄, WeierstrassCurve.b₆,
      WeierstrassCurve.b₈, weierstrass]
    push_cast
    ring
  rw [hcast, Ne, ZMod.natCast_eq_zero_iff]
  decide +kernel

lemma exists_ofCurve {x y : Nat} (h : OnCurve x y) : ∃ P : weierstrass.Point, ofCurve P = .affine x y := by
  have hpoint : weierstrass.Nonsingular (x : Coordinate) y :=
    (equation_iff_nonsingular_of_Δ_ne_zero discriminant_ne_zero).mp (equation_of_onCurve h)
  refine ⟨.some _ _ hpoint, ?_⟩
  simp only [ofCurve]
  rw [ZMod.val_natCast, ZMod.val_natCast, Nat.mod_eq_of_lt h.1, Nat.mod_eq_of_lt h.2.1]

lemma exists_base : ∃ B : weierstrass.Point, ofCurve B = base :=
  exists_ofCurve (by decide +kernel)

/-- Multiples of multiples of the base point commute. -/
theorem mul_mul_comm (a b : Nat) : mul a (mul b base) = mul b (mul a base) := by
  obtain ⟨B, hB⟩ := exists_base
  rw [← hB, mul_ofCurve, mul_ofCurve, mul_ofCurve, mul_ofCurve, smul_comm]

end Point

end SealedImage.P256
