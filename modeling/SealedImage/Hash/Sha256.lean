import SealedImage.Octets.Number

/-!
# SHA-256

The hash function SHA-256: a message is padded to whole blocks of 64 octets (`pad`), each block is
expanded to 64 words (`schedule`) and folded into a state of eight words (`compress`). The digest is
the last state, written most significant octet first.
-/

namespace SealedImage.Sha256

structure State where
  a : UInt32
  b : UInt32
  c : UInt32
  d : UInt32
  e : UInt32
  f : UInt32
  g : UInt32
  h : UInt32

/-- The first 32 bits of the fractional parts of the square roots of the first eight primes. -/
def initial : State :=
  ⟨0x6a09e667, 0xbb67ae85, 0x3c6ef372, 0xa54ff53a, 0x510e527f, 0x9b05688c, 0x1f83d9ab, 0x5be0cd19⟩

/-- The first 32 bits of the fractional parts of the cube roots of the first 64 primes. -/
def roundConstants : List UInt32 :=
  [0x428a2f98, 0x71374491, 0xb5c0fbcf, 0xe9b5dba5, 0x3956c25b, 0x59f111f1, 0x923f82a4, 0xab1c5ed5,
   0xd807aa98, 0x12835b01, 0x243185be, 0x550c7dc3, 0x72be5d74, 0x80deb1fe, 0x9bdc06a7, 0xc19bf174,
   0xe49b69c1, 0xefbe4786, 0x0fc19dc6, 0x240ca1cc, 0x2de92c6f, 0x4a7484aa, 0x5cb0a9dc, 0x76f988da,
   0x983e5152, 0xa831c66d, 0xb00327c8, 0xbf597fc7, 0xc6e00bf3, 0xd5a79147, 0x06ca6351, 0x14292967,
   0x27b70a85, 0x2e1b2138, 0x4d2c6dfc, 0x53380d13, 0x650a7354, 0x766a0abb, 0x81c2c92e, 0x92722c85,
   0xa2bfe8a1, 0xa81a664b, 0xc24b8b70, 0xc76c51a3, 0xd192e819, 0xd6990624, 0xf40e3585, 0x106aa070,
   0x19a4c116, 0x1e376c08, 0x2748774c, 0x34b0bcb5, 0x391c0cb3, 0x4ed8aa4a, 0x5b9cca4f, 0x682e6ff3,
   0x748f82ee, 0x78a5636f, 0x84c87814, 0x8cc70208, 0x90befffa, 0xa4506ceb, 0xbef9a3f7, 0xc67178f2]

/-- Rotation to the right, for `0 < k < 32`. -/
def rotateRight (w k : UInt32) : UInt32 :=
  (w >>> k) ||| (w <<< (32 - k))

/-- The message with a one bit, zeros and its length in bits, filling whole blocks of 64 octets. -/
def pad (message : Octets) : Octets :=
  message ++ [0x80] ++ List.replicate ((119 - message.length % 64) % 64) 0 ++
    Octets.ofNat 8 (message.length * 8)

/-- The words of an octet string, four octets each. -/
def words : Octets → List UInt32
  | a :: b :: c :: d :: rest => Octets.toWordBE [a, b, c, d] :: words rest
  | _ => []

/-- `count` more words in front of the words so far, the latest word first. -/
def extend : (count : Nat) → List UInt32 → List UInt32
  | 0, latest => latest
  | count + 1, latest =>
    let w2 := latest.getD 1 0
    let w15 := latest.getD 14 0
    let s1 := rotateRight w2 17 ^^^ rotateRight w2 19 ^^^ (w2 >>> 10)
    let s0 := rotateRight w15 7 ^^^ rotateRight w15 18 ^^^ (w15 >>> 3)
    extend count ((s1 + latest.getD 6 0 + s0 + latest.getD 15 0) :: latest)

/-- The 64 words that a block of 64 octets contributes, one to each round. -/
def schedule (block : Octets) : List UInt32 :=
  (extend 48 (words block).reverse).reverse

/-- One round, with the sum of its round constant and its word. -/
def round (s : State) (kw : UInt32) : State :=
  let s1 := rotateRight s.e 6 ^^^ rotateRight s.e 11 ^^^ rotateRight s.e 25
  let choice := (s.e &&& s.f) ^^^ ((~~~ s.e) &&& s.g)
  let t1 := s.h + s1 + choice + kw
  let s0 := rotateRight s.a 2 ^^^ rotateRight s.a 13 ^^^ rotateRight s.a 22
  let majority := (s.a &&& s.b) ^^^ (s.a &&& s.c) ^^^ (s.b &&& s.c)
  ⟨t1 + (s0 + majority), s.a, s.b, s.c, s.d + t1, s.e, s.f, s.g⟩

/-- The state after one more block of 64 octets. -/
def compress (s : State) (block : Octets) : State :=
  let t := (List.zipWith (· + ·) roundConstants (schedule block)).foldl round s
  ⟨s.a + t.a, s.b + t.b, s.c + t.c, s.d + t.d, s.e + t.e, s.f + t.f, s.g + t.g, s.h + t.h⟩

/-- The state after the first `count` blocks of 64 octets. -/
def absorb : (count : Nat) → State → Octets → State
  | 0, s, _ => s
  | count + 1, s, xs => absorb count (compress s (xs.take 64)) (xs.drop 64)

def State.octets (s : State) : Octets :=
  [s.a, s.b, s.c, s.d, s.e, s.f, s.g, s.h].flatMap Octets.ofWordBE

/-- The SHA-256 digest of a message. -/
def digest (message : Octets) : Block 32 :=
  let padded := pad message
  ⟨(absorb (padded.length / 64) initial padded).octets, rfl⟩

end SealedImage.Sha256
