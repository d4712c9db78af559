import SealedImage.P256.Curve

/-!
# Keys on P-256

A public key is a point of the curve other than infinity, a secret key a number from one up to the
order of the group. Public keys are written as the octet strings of SEC 1 (`PublicKey.ofSec1?`), and
inside an image as the bare 64 octets of both coordinates (`PublicKey.raw`, `PublicKey.ofRaw?`).
-/

namespace SealedImage.P256

structure PublicKey where
  x : Nat
  y : Nat
  onCurve : OnCurve x y
deriving DecidableEq

/-- A number that is a secret scalar of the group. -/
structure SecretKey where
  scalar : Nat
  pos : 0 < scalar
  lt_order : scalar < order
deriving DecidableEq

namespace PublicKey

def point (k : PublicKey) : Point :=
  .affine k.x k.y

/-- The key with given coordinates, if they are reduced and lie on the curve. -/
def ofCoordinates? (x y : Nat) : Option PublicKey :=
  if h : OnCurve x y then some ⟨x, y, h⟩ else none

def ofPoint? : Point → Option PublicKey
  | .infinity => none
  | .affine x y => ofCoordinates? x y

/-- Both coordinates, 32 octets each. -/
def raw (k : PublicKey) : Block 64 :=
  (Block.ofNat 32 k.x).append (Block.ofNat 32 k.y)

/-- The key whose coordinates the 64 octets write. -/
def ofRaw? (raw : Block 64) : Option PublicKey :=
  ofCoordinates? (Octets.toNat (raw.octets.take 32)) (Octets.toNat (raw.octets.drop 32))

/-- The square root of `a` modulo the prime that is a power of `a`, if `a` has a root. -/
def sqrt? (a : Nat) : Option Nat :=
  let r := Number.powMod a ((prime + 1) / 4) prime
  if r * r % prime = a then some r else none

/-- The two second coordinates that belong to a reduced first coordinate. -/
def heights? (x : Nat) : Option (Nat × Nat) :=
  if x < prime then (sqrt? (cubic x)).map fun y => (y, sub 0 y) else none

/-- The key with a given first coordinate and a second one of given parity. -/
def ofParity? (x parity : Nat) : Option PublicKey := do
  let (y, z) ← heights? x
  ofCoordinates? x (if y % 2 = parity then y else z)

/-- The key with a given first coordinate and the smaller second one. -/
def ofSmaller? (x : Nat) : Option PublicKey := do
  let (y, z) ← heights? x
  ofCoordinates? x (min y z)

/-- The key that an octet string of SEC 1 writes: `04` and both coordinates, `02` or `03` and the first
coordinate for an even or odd second one, `05` and the first coordinate for the smaller second one. -/
def ofSec1? : Octets → Option PublicKey
  | 0x02 :: xs => if xs.length = 32 then ofParity? (Octets.toNat xs) 0 else none
  | 0x03 :: xs => if xs.length = 32 then ofParity? (Octets.toNat xs) 1 else none
  | 0x04 :: xs => (Block.ofOctets? 64 xs).bind ofRaw?
  | 0x05 :: xs => if xs.length = 32 then ofSmaller? (Octets.toNat xs) else none
  | _ => none

def uncompressed (k : PublicKey) : Octets :=
  0x04 :: k.raw.octets

def compressed (k : PublicKey) : Octets :=
  (if k.y % 2 = 0 then 0x02 else 0x03) :: Octets.ofNat 32 k.x

end PublicKey

namespace SecretKey

/-- The secret key with a given scalar, if the scalar is in range. -/
def ofNat? (n : Nat) : Option SecretKey :=
  if h : 0 < n ∧ n < order then some ⟨n, h.1, h.2⟩ else none

/-- The secret key whose scalar an octet string of 24 to 32 octets writes. -/
def ofOctets? (xs : Octets) : Option SecretKey :=
  if 24 ≤ xs.length ∧ xs.length ≤ 32 then ofNat? (Octets.toNat xs) else none

/-- The scalar in 32 octets. -/
def octets (k : SecretKey) : Block 32 :=
  Block.ofNat 32 k.scalar

/-- The multiple of the base point by the scalar. -/
def point (k : SecretKey) : Point :=
  Point.mul k.scalar base

/-- The public key that belongs to the secret key. -/
def publicKey? (k : SecretKey) : Option PublicKey :=
  PublicKey.ofPoint? k.point

/-- The secret that this key shares with the owner of a public key: the first coordinate of the
multiple of the one by the other. -/
def agree (k : SecretKey) (peer : PublicKey) : Block 32 :=
  Block.ofNat 32 (Point.mul k.scalar peer.point).x

end SecretKey

end SealedImage.P256
