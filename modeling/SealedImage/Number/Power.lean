import SealedImage.Octets.Number

/-!
# Modular powers

`powMod b e m` is `b ^ e` modulo `m`, computed by repeated squaring along the bits of the exponent, so
that numbers stay below the square of the modulus.
-/

namespace SealedImage.Number

/-- The power for an exponent below `2 ^ bits`. -/
def powModFrom : (bits : Nat) → (base exponent modulus : Nat) → Nat
  | 0, _, _, m => 1 % m
  | bits + 1, b, e, m =>
    let half := powModFrom bits (b * b % m) (e / 2) m
    if e % 2 = 1 then half * b % m else half

/-- The power `base ^ exponent` modulo `modulus`. -/
def powMod (base exponent modulus : Nat) : Nat :=
  powModFrom (Octets.bitLength exponent) (base % modulus) exponent modulus

end SealedImage.Number
