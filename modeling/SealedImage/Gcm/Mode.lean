import SealedImage.Octets.Number
import SealedImage.Gcm.Field

/-!
# Galois counter mode

Authenticated encryption under an arbitrary block function on 128 bits, with initialization vectors of
16 octets and without associated data. The text is added to the images of consecutive counters
(`crypt`), and the tag is the image of the start counter plus a polynomial in the image of zero whose
coefficients are the blocks of the ciphertext (`tag`). `decrypt?` undoes `encrypt` if and only if the tag
is the right one.
-/

namespace SealedImage.Gcm

/-- A function on blocks of 128 bits: a block cipher under a fixed key. -/
abbrev BlockFunction := BitVec 128 → BitVec 128

/-- Up to 16 octets as a block, filled with zero octets behind. -/
def toBlock (xs : Octets) : BitVec 128 :=
  BitVec.ofNat 128 (Octets.toNat (xs ++ List.replicate (16 - xs.length) 0))

/-- The 16 octets of a block. -/
def ofBlock (b : BitVec 128) : Octets :=
  Octets.ofNat 16 b.toNat

/-- The value at `h` of the polynomial with the given coefficients and no constant term. -/
def hash (h : BitVec 128) (blocks : List (BitVec 128)) : BitVec 128 :=
  blocks.foldl (fun y x => mul (y ^^^ x) h) 0

/-- A block that holds the count of bits of a text of `n` octets. -/
def lengthBlock (n : Nat) : BitVec 128 :=
  BitVec.ofNat 128 (8 * n)

/-- The next counter: the last 32 bits count on, modulo `2 ^ 32`, and the others stay. -/
def next (counter : BitVec 128) : BitVec 128 :=
  BitVec.ofNat 128 (counter.toNat / UInt32.size * UInt32.size + (counter.toNat + 1) % UInt32.size)

/-- The start counter of an initialization vector. -/
def startCounter (f : BlockFunction) (iv : Block 16) : BitVec 128 :=
  hash (f 0) [toBlock iv.octets, lengthBlock 16]

/-- The first `count` blocks of the text added to the images of the counter and its successors. -/
def cryptFrom (f : BlockFunction) : (count : Nat) → (counter : BitVec 128) → Octets → Octets
  | 0, _, _ => []
  | count + 1, counter, xs =>
    List.zipWith (· ^^^ ·) (xs.take 16) (ofBlock (f counter)) ++
      cryptFrom f count (next counter) (xs.drop 16)

/-- The text in counter mode; the counter behind the start counter meets its first block. -/
def crypt (f : BlockFunction) (iv : Block 16) (text : Octets) : Octets :=
  cryptFrom f ((text.length + 15) / 16) (next (startCounter f iv)) text

def tag (f : BlockFunction) (iv : Block 16) (ciphertext : Octets) : Block 16 :=
  let blocks := (Octets.pieces 16 ciphertext).map toBlock ++ [lengthBlock ciphertext.length]
  ⟨ofBlock (f (startCounter f iv) ^^^ hash (f 0) blocks), by simp [ofBlock]⟩

/-- The longest plaintext of one message, in octets. -/
def plaintextLimit : Nat := 0x1000000000

/-- The longest ciphertext of one message, in octets. -/
def ciphertextLimit : Nat := plaintextLimit + 16

/-- The ciphertext and its tag; there is none for a text beyond the limit. -/
def encrypt (f : BlockFunction) (iv : Block 16) (plaintext : Octets) : Option (Octets × Block 16) :=
  if plaintext.length ≤ plaintextLimit then
    let ciphertext := crypt f iv plaintext
    some (ciphertext, tag f iv ciphertext)
  else none

/-- The plaintext of a ciphertext that the given tag belongs to. -/
def decrypt? (f : BlockFunction) (iv : Block 16) (ciphertext : Octets) (t : Block 16) :
    Option Octets :=
  if ciphertext.length ≤ ciphertextLimit ∧ tag f iv ciphertext = t then
    some (crypt f iv ciphertext)
  else none

end SealedImage.Gcm
