import SealedImage.Number.Inverse
import SealedImage.Number.Prime
import SealedImage.Rsa.Key
import SealedImage.Tape

/-!
# New RSA keys

A key of 3072 bits is made of two primes of 1536 bits, drawn one after the other. A prime is searched from
a random odd number with its two top bits set: the number is moved up past small divisors, and replaced if
it is not prime then. The public exponent is fixed, and the private one is its inverse.
-/

namespace SealedImage.Rsa

def standardExponent : Nat := 65537

def primeSize : Nat := 192

/-- The small primes that a candidate is moved past. -/
def smallPrimes : List Nat :=
  [3, 5, 7, 11, 13, 17, 19, 23, 29, 31, 37, 41, 43, 47, 53]

/-- The least of `delta`, `delta + 2`, … that moves `n` past all small divisors, among `count` of them. -/
def clearDelta? (n : Nat) : (count delta : Nat) → Option Nat
  | 0, _ => none
  | count + 1, delta =>
    if smallPrimes.all fun p => (n + delta) % p != 0 then some delta
    else clearDelta? n count (delta + 2)

/-- The candidate that random octets write, with its two top bits and its lowest bit set and moved past
small divisors. -/
def candidate (xs : Octets) : Nat :=
  let bits := 8 * primeSize
  let n := Octets.toNat xs ||| 1 <<< (bits - 1) ||| 1 <<< (bits - 2) ||| 1
  let small := n % smallPrimes.foldl (· * ·) 1
  n + (clearDelta? small 0x80000 0).getD 0

/-- The candidate, if it is a prime of the right size. -/
def prime? (xs : Block primeSize) : Option Nat :=
  let n := candidate xs.octets
  if Octets.bitLength n = 8 * primeSize ∧ Number.isProbablePrime n = true then some n else none

def drawPrime : Draw Nat :=
  Draw.retry (Draw.block primeSize) prime?

def drawFactors : Draw (Nat × Nat) := fun tape => do
  let (p, tape) ← drawPrime tape
  let (q, tape) ← drawPrime tape
  some ((p, q), tape)

/-- The key of two different factors, if the public exponent has an inverse. -/
def ofFactors? (factors : Nat × Nat) : Option PrivateKey :=
  let (p, q) := factors
  if p = q then none
  else
    (Number.inverse? standardExponent ((p - 1) * (q - 1))).map fun d =>
      ⟨⟨p * q, standardExponent⟩, d, p, q⟩

def drawKey : Draw PrivateKey :=
  Draw.retry drawFactors ofFactors?

end SealedImage.Rsa
