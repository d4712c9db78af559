/-!
# Modular inverses

`bezout a b` are coefficients that write the greatest common divisor of `a` and `b` as a combination
of the two (`bezout_eq`). `inverse? a m` is the inverse of `a` modulo `m`, if there is one.
-/

namespace SealedImage.Number

/-- Coefficients `(u, v)` with `a * u + b * v = gcd a b`. -/
def bezout (a b : Nat) : Int × Int :=
  if _h : b = 0 then (1, 0)
  else
    let r := bezout b (a % b)
    (r.2, r.1 - (a / b : Nat) * r.2)
termination_by b
decreasing_by exact Nat.mod_lt a (Nat.pos_of_ne_zero ‹_›)

theorem bezout_eq (a b : Nat) : (a : Int) * (bezout a b).1 + b * (bezout a b).2 = Nat.gcd a b := by
  induction b using Nat.strongRecOn generalizing a with
  | _ b ih =>
    rw [bezout]
    split
    · rename_i h
      subst h
      simp
    · rename_i h
      have hb := ih (a % b) (Nat.mod_lt a (Nat.pos_of_ne_zero h)) b
      have hg : Nat.gcd b (a % b) = Nat.gcd a b := by
        rw [Nat.gcd_comm a b, Nat.gcd_rec b a, Nat.gcd_comm]
      have hd : (a : Int) = b * (a / b : Nat) + (a % b : Nat) := by
        have := Nat.div_add_mod a b
        omega
      rw [hg] at hb
      rw [← hb]
      dsimp only
      generalize bezout b (a % b) = r
      conv => lhs; rw [hd]
      rw [Int.add_mul, Int.mul_sub, Int.mul_assoc]
      omega

/-- The inverse of `a` modulo `m` below `m`, if `a` and `m` have no common factor. -/
def inverse? (a m : Nat) : Option Nat :=
  if Nat.gcd a m = 1 then some ((bezout a m).1 % (m : Int)).toNat else none

end SealedImage.Number
