import SealedImage.Number.Power

/-!
# Probable primes

`isProbablePrime` is the strong probable prime test (Miller and Rabin) for a fixed list of bases. It
accepts every odd prime above the bases, and of the composite numbers only those that are strong
pseudoprimes to all the bases at once.
-/

namespace SealedImage.Number

/-- One of `x`, `x ^ 2`, `x ^ 4`, … with at most `count` squarings is `-1` modulo `n`. -/
def reachesMinusOne (n : Nat) : (count x : Nat) → Bool
  | 0, x => x == n - 1
  | count + 1, x => x == n - 1 || reachesMinusOne n count (x * x % n)

/-- The exponent of two in `n`, for `n < 2 ^ bits`. -/
def twosFrom : (bits n : Nat) → Nat
  | 0, _ => 0
  | bits + 1, n => if n % 2 = 0 then twosFrom bits (n / 2) + 1 else 0

/-- The odd number `n` passes the strong probable prime test to a base. -/
def isStrongProbablePrime (n base : Nat) : Bool :=
  let twos := twosFrom (Octets.bitLength n) (n - 1)
  let x := powMod base ((n - 1) >>> twos) n
  x == 1 || reachesMinusOne n (twos - 1) x

/-- The bases of the test: the first twenty primes. -/
def bases : List Nat :=
  [2, 3, 5, 7, 11, 13, 17, 19, 23, 29, 31, 37, 41, 43, 47, 53, 59, 61, 67, 71]

/-- The odd number `n` passes the test to all bases. -/
def isProbablePrime (n : Nat) : Bool :=
  bases.all (isStrongProbablePrime n)

end SealedImage.Number
