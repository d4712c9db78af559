import Mathlib.FieldTheory.Finite.Extension
import Mathlib.RingTheory.AdjoinRoot
import Mathlib.Tactic.ComputeDegree
import SealedImage.Gcm.Field

/-!
# Words as elements of a field

A word of 128 bits stands for a polynomial over two elements (`polynomial`), modulo the polynomial of the
mode (`toRing`). Products of words are products there (`toRing_mul`). The modulus is irreducible, by Rabin's
test: the root returns to itself after 128 squarings, and after 64 its difference from itself has an inverse.
So a product with a word other than zero loses nothing (`mul_right_injective`).
-/

namespace SealedImage.Gcm

open Polynomial Finset

def bit (v : BitVec 128) (i : Nat) : ZMod 2 :=
  if v.getMsbD i then 1 else 0

lemma bit_xor (v w : BitVec 128) (i : Nat) : bit (v ^^^ w) i = bit v i + bit w i := by
  unfold bit
  rw [BitVec.getMsbD_xor]
  cases v.getMsbD i <;> cases w.getMsbD i <;> decide

lemma bit_of_le {v : BitVec 128} {i : Nat} (h : 128 ≤ i) : bit v i = 0 := by
  unfold bit
  rw [BitVec.getMsbD_of_ge _ _ h]
  rfl

lemma bit_injective {v w : BitVec 128} (h : ∀ i, bit v i = bit w i) : v = w := by
  apply BitVec.eq_of_getMsbD_eq
  intro i _
  have hi := h i
  unfold bit at hi
  cases hv : v.getMsbD i <;> cases hw : w.getMsbD i <;> simp [hv, hw] at hi ⊢

/-- The polynomial whose first coefficients are the first bits of a word. -/
noncomputable def partialSum (count : Nat) (v : BitVec 128) : (ZMod 2)[X] :=
  ∑ i ∈ range count, C (bit v i) * X ^ i

/-- The polynomial that a word stands for. -/
noncomputable def polynomial (v : BitVec 128) : (ZMod 2)[X] :=
  partialSum 128 v

@[simp] lemma coeff_polynomial (v : BitVec 128) (n : Nat) : (polynomial v).coeff n = bit v n := by
  unfold polynomial partialSum
  simp only [finsetSum_coeff, coeff_C_mul_X_pow, sum_ite_eq, mem_range]
  by_cases h : n < 128
  · rw [if_pos h]
  · rw [if_neg h, bit_of_le (Nat.not_lt.mp h)]

lemma polynomial_xor (v w : BitVec 128) : polynomial (v ^^^ w) = polynomial v + polynomial w := by
  ext n
  rw [coeff_add, coeff_polynomial, coeff_polynomial, coeff_polynomial, bit_xor]

/-- The polynomial that products are reduced by. -/
noncomputable def modulus : (ZMod 2)[X] :=
  X ^ 128 + X ^ 7 + X ^ 2 + X + 1

/-- A shift multiplies by the variable, but for the last coefficient. -/
lemma X_mul_polynomial (v : BitVec 128) :
    X * polynomial v = polynomial (v >>> 1) + C (bit v 127) * X ^ 128 := by
  ext n
  rw [coeff_add, coeff_C_mul, coeff_X_pow, coeff_polynomial]
  cases n with
  | zero =>
    rw [coeff_X_mul_zero]
    simp [bit, BitVec.getMsbD_ushiftRight]
  | succ n =>
    rw [coeff_X_mul, coeff_polynomial]
    unfold bit
    rw [BitVec.getMsbD_ushiftRight]
    by_cases hlast : n = 127
    · simp [hlast]
    · by_cases hlt : n + 1 < 128
      · simp [hlt, hlast]
      · have hout : v.getMsbD n = false := BitVec.getMsbD_of_ge _ _ (by omega)
        simp [hlt, hlast, hout]

lemma polynomial_reduction : polynomial (0xe1#128 <<< 120) = X ^ 7 + X ^ 2 + X + 1 := by
  ext n
  rw [coeff_polynomial]
  by_cases hlt : n < 8
  · interval_cases n <;> simp [bit, coeff_X, coeff_one, coeff_X_pow]
  · have hzero : bit (0xe1#128 <<< 120) n = 0 := by
      unfold bit
      rw [BitVec.getMsbD_shiftLeft, BitVec.getMsbD_of_ge _ _ (by omega)]
      simp
    rw [hzero]
    simp [coeff_X, coeff_one, coeff_X_pow, show n ≠ 7 by omega, show n ≠ 2 by omega, show 1 ≠ n by omega,
      show n ≠ 0 by omega]

/-- The words as residues of polynomials. -/
abbrev Residue : Type :=
  AdjoinRoot modulus

/-- The residue that a word stands for. -/
noncomputable def toRing (v : BitVec 128) : Residue :=
  AdjoinRoot.mk modulus (polynomial v)

lemma toRing_xor (v w : BitVec 128) : toRing (v ^^^ w) = toRing v + toRing w := by
  unfold toRing
  rw [polynomial_xor, map_add]

lemma polynomial_zero : polynomial 0 = 0 := by
  ext n
  simp [bit]

lemma toRing_zero : toRing 0 = 0 := by
  rw [toRing, polynomial_zero, map_zero]

lemma add_self_eq_zero (p : (ZMod 2)[X]) : p + p = 0 := by
  ext n
  rw [coeff_add, coeff_zero]
  exact CharTwo.add_self_eq_zero _

/-- The variable is the root. -/
lemma toRing_timesX (v : BitVec 128) : toRing (timesX v) = AdjoinRoot.root modulus * toRing v := by
  have hlast : v.getLsbD 0 = v.getMsbD 127 := by
    rw [BitVec.getMsbD_eq_getLsbD]
    simp
  unfold toRing
  rw [← AdjoinRoot.mk_X, ← map_mul, AdjoinRoot.mk_eq_mk, X_mul_polynomial, timesX, hlast]
  by_cases h : v.getMsbD 127 = true
  · rw [if_pos h, polynomial_xor, polynomial_reduction, bit, if_pos h]
    refine ⟨1, ?_⟩
    unfold modulus
    have hone : (C 1 : (ZMod 2)[X]) = 1 := C_1
    rw [hone]
    linear_combination -add_self_eq_zero (X ^ 128)
  · rw [if_neg h, bit, if_neg h]
    simp

lemma bit_shiftLeft (v : BitVec 128) (i : Nat) : bit (v <<< 1) i = bit v (i + 1) := by
  unfold bit
  rw [BitVec.getMsbD_shiftLeft]

lemma partialSum_succ (count : Nat) (v : BitVec 128) :
    partialSum (count + 1) v = X * partialSum count (v <<< 1) + C (bit v 0) := by
  unfold partialSum
  rw [sum_range_succ', mul_sum]
  refine congrArg₂ (· + ·) ?_ ?_
  · apply sum_congr rfl
    intro i _
    rw [bit_shiftLeft, pow_succ]
    ring
  · simp

/-- What the loop has added is the product with the first terms. -/
lemma toRing_mulFrom (count : Nat) (a v total : BitVec 128) :
    toRing (mulFrom count a v total) =
      toRing total + AdjoinRoot.mk modulus (partialSum count a) * toRing v := by
  induction count generalizing a v total with
  | zero => simp [mulFrom, partialSum]
  | succ count ih =>
    have hfirst : toRing (if a.msb then total ^^^ v else total) =
        toRing total + AdjoinRoot.mk modulus (C (bit a 0)) * toRing v := by
      unfold bit
      rw [← BitVec.msb_eq_getMsbD_zero]
      by_cases h : a.msb
      · rw [if_pos h, if_pos h, toRing_xor, C_1, map_one, one_mul]
      · rw [if_neg h, if_neg h, C_0, map_zero, zero_mul, add_zero]
    rw [mulFrom, ih, hfirst, toRing_timesX, partialSum_succ, map_add, map_mul, AdjoinRoot.mk_X]
    ring

theorem toRing_mul (a b : BitVec 128) : toRing (mul a b) = toRing a * toRing b := by
  unfold mul
  rw [toRing_mulFrom, toRing_zero, zero_add]
  rfl

lemma toRing_iterate_square (count : Nat) (v : BitVec 128) :
    toRing ((fun w => mul w w)^[count] v) = toRing v ^ 2 ^ count := by
  induction count with
  | zero => simp
  | succ count ih => rw [Function.iterate_succ_apply', toRing_mul, ih, ← pow_add, pow_succ, mul_two]

lemma degree_modulus : modulus.natDegree = 128 := by
  unfold modulus
  compute_degree!

lemma modulus_monic : modulus.Monic := by
  unfold modulus
  monicity!

def xWord : BitVec 128 :=
  1#128 <<< 126

lemma toRing_xWord : toRing xWord = AdjoinRoot.root modulus := by
  have hx : polynomial xWord = X := by
    ext n
    rw [coeff_polynomial, coeff_X]
    by_cases hn : 1 = n
    · subst hn
      rw [if_pos rfl]
      decide +kernel
    · rw [if_neg hn]
      unfold bit xWord
      rw [BitVec.getMsbD_shiftLeft, if_neg]
      by_cases hlt : n + 126 < 128
      · have hzero : n = 0 := by omega
        rw [hzero]
        decide
      · rw [BitVec.getMsbD_of_ge _ _ (by omega)]
        decide
  rw [toRing, hx, AdjoinRoot.mk_X]

def oneWord : BitVec 128 :=
  1#128 <<< 127

lemma toRing_oneWord : toRing oneWord = 1 := by
  have hone : polynomial oneWord = 1 := by
    ext n
    rw [coeff_polynomial, coeff_one]
    by_cases hn : n = 0
    · subst hn
      rw [if_pos rfl]
      decide +kernel
    · rw [if_neg hn]
      unfold bit oneWord
      rw [BitVec.getMsbD_shiftLeft, BitVec.getMsbD_of_ge _ _ (by omega)]
      rfl
  rw [toRing, hone, map_one]

/-- After 128 squarings the root is back. -/
lemma root_pow : AdjoinRoot.root modulus ^ 2 ^ 128 = AdjoinRoot.root modulus := by
  have hback : (fun w => mul w w)^[128] xWord = xWord := by decide +kernel
  rw [← toRing_xWord, ← toRing_iterate_square, hback]

/-- After 64 squarings the root differs from itself by a unit. -/
lemma exists_inverse : ∃ u, u * (AdjoinRoot.root modulus ^ 2 ^ 64 + AdjoinRoot.root modulus) = 1 := by
  have hunit : mul 0x180da934bf53158251c13dbb149f5279#128 ((fun w => mul w w)^[64] xWord ^^^ xWord) =
      oneWord := by decide +kernel
  refine ⟨toRing 0x180da934bf53158251c13dbb149f5279#128, ?_⟩
  rw [← toRing_xWord, ← toRing_iterate_square, ← toRing_xor, ← toRing_mul, hunit, toRing_oneWord]

lemma dvd_of_root_pow {n : Nat} (h : AdjoinRoot.root modulus ^ 2 ^ n = AdjoinRoot.root modulus) :
    modulus ∣ X ^ 2 ^ n - X := by
  rw [← AdjoinRoot.mk_eq_mk, map_pow, AdjoinRoot.mk_X]
  exact h

/-- A factor of the modulus that divides a difference which is a unit modulo it is a unit itself. -/
lemma isUnit_of_dvd_sub {p : (ZMod 2)[X]} {n : Nat} (hdvd : p ∣ modulus) (hsub : p ∣ X ^ 2 ^ n - X)
    (h : ∃ u, u * (AdjoinRoot.root modulus ^ 2 ^ n + AdjoinRoot.root modulus) = 1) : IsUnit p := by
  obtain ⟨u, hu⟩ := h
  obtain ⟨U, rfl⟩ := AdjoinRoot.mk_surjective u
  have hunit : modulus ∣ U * (X ^ 2 ^ n + X) - 1 := by
    rw [← AdjoinRoot.mk_eq_mk, map_mul, map_add, map_pow, AdjoinRoot.mk_X, map_one]
    exact hu
  have hsum : p ∣ U * (X ^ 2 ^ n + X) := by
    have hadd : X ^ 2 ^ n + X = (X ^ 2 ^ n - X) + (X + X : (ZMod 2)[X]) := by ring
    rw [hadd, add_self_eq_zero, add_zero]
    exact hsub.mul_left U
  have hone : p ∣ 1 := by
    have hdiff := dvd_sub hsum (hdvd.trans hunit)
    rwa [sub_sub_cancel] at hdiff
  exact isUnit_of_dvd_one hone

/-- An irreducible factor of the modulus divides the difference of the variable from a power of itself, if
its degree divides the count of squarings. -/
lemma dvd_sub_of_natDegree_dvd {p : (ZMod 2)[X]} (hp : Irreducible p) {n : Nat} :
    p.natDegree ∣ n ↔ p ∣ X ^ 2 ^ n - X := by
  rw [hp.natDegree_dvd_iff_dvd_X_pow_card_pow_sub_X, Nat.card_zmod]

lemma natDegree_factor {p : (ZMod 2)[X]} (hp : Irreducible p) (hdvd : p ∣ modulus) : p.natDegree = 128 := by
  have hdegree : p.natDegree ∣ 128 :=
    (dvd_sub_of_natDegree_dvd hp).mpr (hdvd.trans (dvd_of_root_pow root_pow))
  obtain ⟨j, hj, hpow⟩ := (Nat.dvd_prime_pow Nat.prime_two).mp (show p.natDegree ∣ 2 ^ 7 from hdegree)
  by_contra hne
  have hlt : j ≤ 6 := by
    by_contra hlarge
    have hseven : j = 7 := by omega
    rw [hseven] at hpow
    exact hne hpow
  have hhalf : p.natDegree ∣ 64 := by
    rw [hpow]
    exact pow_dvd_pow 2 hlt
  exact hp.not_isUnit (isUnit_of_dvd_sub hdvd ((dvd_sub_of_natDegree_dvd hp).mp hhalf) exists_inverse)

theorem modulus_irreducible : Irreducible modulus := by
  have hne : modulus ≠ 0 := modulus_monic.ne_zero
  have hnot : ¬IsUnit modulus := fun h => by
    have hzero := natDegree_eq_zero_of_isUnit h
    rw [degree_modulus] at hzero
    exact absurd hzero (by decide)
  obtain ⟨p, hp, q, hq⟩ := WfDvdMonoid.exists_irreducible_factor hnot hne
  have hdegree := natDegree_factor hp ⟨q, hq⟩
  have hqne : q ≠ 0 := fun h => hne (by rw [hq, h, mul_zero])
  have hconst : q.natDegree = 0 := by
    have hsum := natDegree_mul hp.ne_zero hqne
    rw [← hq, degree_modulus, hdegree] at hsum
    omega
  have hunit : IsUnit q := by
    rw [eq_C_of_natDegree_eq_zero hconst]
    refine isUnit_C.mpr (isUnit_iff_ne_zero.mpr fun h => hqne ?_)
    rw [eq_C_of_natDegree_eq_zero hconst, h, C_0]
  rw [hq]
  exact (associated_mul_unit_right p q hunit).irreducible hp

instance modulus_fact : Fact (Irreducible modulus) :=
  ⟨modulus_irreducible⟩

/-- Only the zero word stands for zero. -/
lemma eq_zero_of_toRing {v : BitVec 128} (h : toRing v = 0) : v = 0 := by
  have hzero : polynomial v = 0 := by
    by_contra hne
    refine AdjoinRoot.mk_ne_zero_of_degree_lt modulus_monic hne ?_ h
    rw [degree_eq_natDegree modulus_monic.ne_zero, degree_modulus]
    refine (degree_lt_iff_coeff_zero _ _).mpr fun n hn => ?_
    rw [coeff_polynomial, bit_of_le hn]
  apply bit_injective
  intro i
  rw [← coeff_polynomial, hzero, ← coeff_polynomial, polynomial_zero]

/-- A product with a word other than zero loses nothing. -/
theorem mul_right_injective {h : BitVec 128} (hne : h ≠ 0) {a b : BitVec 128} (heq : mul a h = mul b h) :
    a = b := by
  have hprod : toRing (a ^^^ b) * toRing h = 0 := by
    rw [toRing_xor, add_mul, ← toRing_mul, ← toRing_mul, heq, ← toRing_xor, BitVec.xor_self]
    exact toRing_zero
  rcases mul_eq_zero.mp hprod with hzero | hzero
  · exact BitVec.xor_eq_zero_iff.mp (eq_zero_of_toRing hzero)
  · exact absurd (eq_zero_of_toRing hzero) hne

end SealedImage.Gcm
