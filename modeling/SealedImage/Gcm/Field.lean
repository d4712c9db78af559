/-!
# The field of 2^128 elements

A word of 128 bits is a polynomial over the field of two elements: the most significant bit is the
constant term, the least significant one the coefficient of `x^127`. Addition is `^^^`, and products
are reduced by `x^128 + x^7 + x^2 + x + 1`.
-/

namespace SealedImage.Gcm

/-- Multiplication by `x`. -/
def timesX (v : BitVec 128) : BitVec 128 :=
  if v.getLsbD 0 then (v >>> 1) ^^^ (0xe1#128 <<< 120) else v >>> 1

/-- `total` plus the product of `v` with the first `count` terms of `a`. -/
def mulFrom : (count : Nat) → (a v total : BitVec 128) → BitVec 128
  | 0, _, _, total => total
  | count + 1, a, v, total =>
    mulFrom count (a <<< 1) (timesX v) (if a.msb then total ^^^ v else total)

def mul (a b : BitVec 128) : BitVec 128 :=
  mulFrom 128 a b 0

end SealedImage.Gcm
