import SealedImage.Number.Power

/-!
# The curve P-256

Points of the elliptic curve `y^2 = x^3 - 3x + b` over the integers modulo the prime `prime`, in affine
coordinates below the prime, with the group law by chords and tangents and multiples by doubling and
adding. The base point generates a group of prime order `order`.
-/

namespace SealedImage.P256

/-- The prime that the coordinates are reduced by. -/
def prime : Nat := 0xffffffff00000001000000000000000000000000ffffffffffffffffffffffff

def order : Nat := 0xffffffff00000000ffffffffffffffffbce6faada7179e84f3b9cac2fc632551

/-- The coefficient of `x` in the equation of the curve, that is `-3`. -/
def linear : Nat := prime - 3

/-- The constant term in the equation of the curve. -/
def constant : Nat := 0x5ac635d8aa3a93e7b3ebbd55769886bc651d06b0cc53b0f63bce3c3e27d2604b

/-- A point in affine coordinates, or the point at infinity. -/
inductive Point
  | infinity
  | affine (x y : Nat)
deriving DecidableEq

def base : Point :=
  .affine 0x6b17d1f2e12c4247f8bce6e563a440f277037d812deb33a0f4a13945d898c296
    0x4fe342e2fe1a7f9b8ee7eb4a7c0f9e162bce33576b315ececbb6406837bf51f5

/-- The right-hand side of the equation of the curve. -/
def cubic (x : Nat) : Nat :=
  (x * x % prime * x + linear * x + constant) % prime

/-- Both coordinates are reduced and satisfy the equation of the curve. -/
def OnCurve (x y : Nat) : Prop :=
  x < prime ∧ y < prime ∧ y * y % prime = cubic x

instance (x y : Nat) : Decidable (OnCurve x y) :=
  inferInstanceAs (Decidable (_ ∧ _))

/-- The difference of two reduced numbers modulo the prime. -/
def sub (a b : Nat) : Nat :=
  (a + (prime - b)) % prime

/-- The inverse modulo the prime; zero for zero. -/
def inv (a : Nat) : Nat :=
  Number.powMod a (prime - 2) prime

namespace Point

/-- The third point on the line of a given slope through two points, reflected. -/
def onLine (slope x₁ y₁ x₂ : Nat) : Point :=
  let x₃ := sub (sub (slope * slope % prime) x₁) x₂
  .affine x₃ (sub (slope * sub x₁ x₃ % prime) y₁)

def add : Point → Point → Point
  | infinity, q => q
  | p, infinity => p
  | affine x₁ y₁, affine x₂ y₂ =>
    if x₁ = x₂ then
      if y₁ = y₂ ∧ y₁ ≠ 0 then
        onLine ((3 * (x₁ * x₁) + linear) * inv (2 * y₁) % prime) x₁ y₁ x₁
      else infinity
    else onLine (sub y₂ y₁ * inv (sub x₂ x₁) % prime) x₁ y₁ x₂

/-- The multiple of a point by a number below `2 ^ bits`. -/
def mulFrom : (bits k : Nat) → Point → Point
  | 0, _, _ => infinity
  | bits + 1, k, p =>
    let even := mulFrom bits (k / 2) (add p p)
    if k % 2 = 1 then add even p else even

/-- The multiple `k • p` of a point. -/
def mul (k : Nat) (p : Point) : Point :=
  mulFrom (Octets.bitLength k) k p

/-- The first coordinate; zero for the point at infinity. -/
def x : Point → Nat
  | infinity => 0
  | affine x _ => x

end Point

end SealedImage.P256
