import Mathlib.NumberTheory.LucasPrimality
import SealedImage.P256.Curve
import SealedImage.Proofs.Powers

/-!
# Certificates of primality

A row of a certificate names a number, the prime factors of its predecessor and a root, a number whose
powers show that the predecessor is the order of the root. The factors are justified by later rows
(`prime_of_certifies`). The prime of the curve has such a certificate (`P256.prime_prime`).
-/

namespace SealedImage

namespace Number

/-- A number, a root, and the factors of the predecessor of the number with their multiplicities. -/
structure LucasRow where
  number : Nat
  root : Nat
  factors : List (Nat × Nat)

/-- The factors are two or have rows of their own, multiply to the predecessor, and the root has the
predecessor as its order. -/
def LucasRow.isJustified (row : LucasRow) (others : List LucasRow) : Bool :=
  decide (1 < row.number) && powMod row.root (row.number - 1) row.number == 1 &&
    (row.factors.map fun q => q.1 ^ q.2).prod == row.number - 1 &&
    row.factors.all fun q => (q.1 == 2 || others.any fun other => other.number == q.1) &&
      powMod row.root ((row.number - 1) / q.1) row.number != 1

/-- Every row is justified by the rows behind it. -/
def certifies : List LucasRow → Bool
  | [] => true
  | row :: rows => row.isJustified rows && certifies rows

lemma powMod_eq_one_iff {a e p : Nat} (hp : 1 < p) : powMod a e p = 1 ↔ (a : ZMod p) ^ e = 1 := by
  have hone : 1 % p = 1 := Nat.mod_eq_of_lt hp
  rw [powMod_eq, ← Nat.cast_pow, ← Nat.cast_one (R := ZMod p), ZMod.natCast_eq_natCast_iff', hone]

lemma mem_of_dvd_prod {factors : List (Nat × Nat)} (hprime : ∀ q ∈ factors, q.1.Prime) {p : Nat}
    (hp : p.Prime) (h : p ∣ (factors.map fun q => q.1 ^ q.2).prod) : ∃ q ∈ factors, q.1 = p := by
  obtain ⟨power, hmem, hdvd⟩ := (Prime.dvd_prod_iff hp.prime).mp h
  obtain ⟨q, hq, rfl⟩ := List.mem_map.mp hmem
  exact ⟨q, hq, ((Nat.prime_dvd_prime_iff_eq hp (hprime q hq)).mp (hp.dvd_of_dvd_pow hdvd)).symm⟩

lemma prime_of_isJustified {row : LucasRow} {others : List LucasRow}
    (hothers : ∀ other ∈ others, other.number.Prime) (h : row.isJustified others = true) :
    row.number.Prime := by
  simp only [LucasRow.isJustified, Bool.and_eq_true, decide_eq_true_eq, beq_iff_eq, List.all_eq_true,
    Bool.or_eq_true, List.any_eq_true, bne_iff_ne] at h
  obtain ⟨⟨⟨hlt, hroot⟩, hprod⟩, hfactors⟩ := h
  have hprime : ∀ q ∈ row.factors, q.1.Prime := by
    intro q hq
    rcases (hfactors q hq).1 with htwo | ⟨other, hother, heq⟩
    · rw [htwo]
      exact Nat.prime_two
    · rw [← heq]
      exact hothers other hother
  refine lucas_primality row.number row.root ((powMod_eq_one_iff hlt).mp hroot) fun p hp hdvd => ?_
  rw [← hprod] at hdvd
  obtain ⟨q, hq, rfl⟩ := mem_of_dvd_prod hprime hp hdvd
  exact fun hone => (hfactors q hq).2 ((powMod_eq_one_iff hlt).mpr hone)

/-- The numbers of a certificate are prime. -/
theorem prime_of_certifies (rows : List LucasRow) (h : certifies rows = true) :
    ∀ row ∈ rows, row.number.Prime := by
  induction rows with
  | nil => simp
  | cons row rows ih =>
    rw [certifies, Bool.and_eq_true] at h
    intro r hr
    rcases List.mem_cons.mp hr with rfl | hr
    · exact prime_of_isJustified (ih h.2) h.1
    · exact ih h.2 r hr

end Number

namespace P256

def certificate : List Number.LucasRow :=
  [⟨prime, 6, [(2, 1), (3, 1), (5, 2), (17, 1), (257, 1), (641, 1), (1531, 1), (65537, 1), (490463, 1),
      (6700417, 1), (835945042244614951780389953367877943453916927241, 1)]⟩,
    ⟨835945042244614951780389953367877943453916927241, 11, [(2, 3), (3, 3), (5, 1),
      (774023187263532362759620327192479577272145303, 1)]⟩,
    ⟨774023187263532362759620327192479577272145303, 3, [(2, 1), (3, 2), (2411, 1), (34282281433, 1),
      (11290956913871, 1), (46076956964474543, 1)]⟩,
    ⟨46076956964474543, 5, [(2, 1), (23, 1), (18169, 1), (78283, 1), (704251, 1)]⟩,
    ⟨11290956913871, 13, [(2, 1), (5, 1), (17, 1), (66417393611, 1)]⟩,
    ⟨66417393611, 6, [(2, 1), (5, 1), (53, 1), (173, 1), (197, 1), (3677, 1)]⟩,
    ⟨34282281433, 17, [(2, 3), (3, 1), (7, 1), (204061199, 1)]⟩,
    ⟨204061199, 11, [(2, 1), (11, 1), (23, 1), (107, 1), (3769, 1)]⟩,
    ⟨6700417, 5, [(2, 7), (3, 1), (17449, 1)]⟩, ⟨704251, 2, [(2, 1), (3, 2), (5, 3), (313, 1)]⟩,
    ⟨490463, 14, [(2, 1), (7, 1), (53, 1), (661, 1)]⟩, ⟨78283, 3, [(2, 1), (3, 2), (4349, 1)]⟩,
    ⟨65537, 3, [(2, 16)]⟩, ⟨18169, 11, [(2, 3), (3, 1), (757, 1)]⟩,
    ⟨17449, 14, [(2, 3), (3, 1), (727, 1)]⟩, ⟨4349, 2, [(2, 2), (1087, 1)]⟩,
    ⟨3769, 7, [(2, 3), (3, 1), (157, 1)]⟩, ⟨3677, 2, [(2, 2), (919, 1)]⟩,
    ⟨2411, 6, [(2, 1), (5, 1), (241, 1)]⟩, ⟨1531, 2, [(2, 1), (3, 2), (5, 1), (17, 1)]⟩,
    ⟨1087, 3, [(2, 1), (3, 1), (181, 1)]⟩, ⟨919, 7, [(2, 1), (3, 3), (17, 1)]⟩,
    ⟨757, 2, [(2, 2), (3, 3), (7, 1)]⟩, ⟨727, 5, [(2, 1), (3, 1), (11, 2)]⟩,
    ⟨661, 2, [(2, 2), (3, 1), (5, 1), (11, 1)]⟩, ⟨641, 3, [(2, 7), (5, 1)]⟩,
    ⟨313, 10, [(2, 3), (3, 1), (13, 1)]⟩, ⟨257, 3, [(2, 8)]⟩, ⟨241, 7, [(2, 4), (3, 1), (5, 1)]⟩,
    ⟨197, 2, [(2, 2), (7, 2)]⟩, ⟨181, 2, [(2, 2), (3, 2), (5, 1)]⟩, ⟨173, 2, [(2, 2), (43, 1)]⟩,
    ⟨157, 5, [(2, 2), (3, 1), (13, 1)]⟩, ⟨107, 2, [(2, 1), (53, 1)]⟩, ⟨53, 2, [(2, 2), (13, 1)]⟩,
    ⟨43, 3, [(2, 1), (3, 1), (7, 1)]⟩, ⟨23, 5, [(2, 1), (11, 1)]⟩, ⟨17, 3, [(2, 4)]⟩,
    ⟨13, 2, [(2, 2), (3, 1)]⟩, ⟨11, 2, [(2, 1), (5, 1)]⟩, ⟨7, 3, [(2, 1), (3, 1)]⟩, ⟨5, 2, [(2, 2)]⟩,
    ⟨3, 2, [(2, 1)]⟩]

/-- The coordinates of points are elements of a field. -/
theorem prime_prime : prime.Prime :=
  Number.prime_of_certifies certificate (by decide +kernel) _ List.mem_cons_self

end P256

end SealedImage
