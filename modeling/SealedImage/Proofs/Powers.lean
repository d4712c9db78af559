import Mathlib.Tactic.Ring
import SealedImage.Number.Power

/-!
# Modular powers are powers

Repeated squaring along the bits of an exponent gives the power (`Number.powMod_eq`).
-/

namespace SealedImage.Number

theorem lt_two_pow_bitLength (n : Nat) : n < 2 ^ Octets.bitLength n := by
  unfold Octets.bitLength
  split
  · omega
  · exact Nat.lt_log2_self

theorem powModFrom_eq (bits b e m : Nat) (h : e < 2 ^ bits) :
    powModFrom bits b e m = b ^ e % m := by
  induction bits generalizing b e with
  | zero =>
    have h0 : e = 0 := by omega
    subst h0
    rfl
  | succ bits ih =>
    have hlt : e / 2 < 2 ^ bits := by rw [Nat.pow_succ] at h; omega
    have hsq : (b * b % m) ^ (e / 2) % m = b ^ (e / 2 * 2) % m := by
      rw [← Nat.pow_mod, Nat.mul_comm (e / 2) 2, Nat.pow_mul, Nat.pow_two]
    rw [powModFrom]
    rw [ih _ _ hlt, hsq]
    split
    · rename_i hodd
      have he : e = e / 2 * 2 + 1 := by omega
      conv => rhs; rw [he, Nat.pow_succ]
      rw [Nat.mod_mul_mod]
    · rename_i heven
      have he : e / 2 * 2 = e := by omega
      rw [he]

theorem powMod_eq (b e m : Nat) : powMod b e m = b ^ e % m := by
  rw [powMod, powModFrom_eq _ _ _ _ (lt_two_pow_bitLength e), ← Nat.pow_mod]

end SealedImage.Number
