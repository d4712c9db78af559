import SealedImage.Failure
import SealedImage.Image.KeySlot
import SealedImage.Octets.Number

/-!
# The header of an image

A header holds the slot for the key, the initialization vector, the length of the ciphertext and the
authentication tag. `toOctets` writes its 512 octets and `parse` reads them from the start of a longer
string; the octets behind the tag are written as zeros and not looked at.
-/

namespace SealedImage

def magicNumber : UInt32 := 0x0788b6cf

/-- The fields of a header. The slot is kept as it stands, since its meaning depends on the scheme. -/
structure Header where
  keySlot : Block 384
  iv : Block 16
  ciphertextLength : UInt32
  authTag : Block 16
deriving DecidableEq

namespace Header

/-- The 512 octets of a header. -/
def toOctets (h : Header) : Octets :=
  Octets.ofWordLE magicNumber ++ h.keySlot.octets ++ h.iv.octets ++
    Octets.ofWordLE h.ciphertextLength ++ h.authTag.octets ++
    List.replicate Layout.reserved.size 0

/-- A string starts with an image if its first four octets are the magic number. -/
def checkMagic (magic : Octets) : Except Failure Unit :=
  let found := Octets.toWordLE magic
  if found = magicNumber then pure () else throw (.invalidMagic found)

/-- The fields of a string that is at least as long as a header. -/
def ofOctets (xs : Octets) (h : Layout.headerSize ≤ xs.length) : Header where
  keySlot := Block.cut xs Layout.keySlot.offset 384 (Nat.le_trans (by decide) h)
  iv := Block.cut xs Layout.iv.offset 16 (Nat.le_trans (by decide) h)
  ciphertextLength :=
    Octets.toWordLE ((xs.drop Layout.ciphertextLength.offset).take Layout.ciphertextLength.size)
  authTag := Block.cut xs Layout.authTag.offset 16 (Nat.le_trans (by decide) h)

/-- The header at the start of a string. The magic number is judged first, if the string holds one. -/
def parse (xs : Octets) : Except Failure Header := do
  if xs.length < Layout.magic.size then throw (.header (.tooShort xs.length))
  checkMagic (xs.take Layout.magic.size)
  if h : Layout.headerSize ≤ xs.length then pure (ofOctets xs h)
  else throw (.header (.truncated xs.length))

/-- What the slot for the key means under a scheme. -/
def keyBlob (h : Header) (scheme : Scheme) : KeyBlob :=
  KeyBlob.ofSlot scheme h.keySlot

/-- The text that shows a header, with the first octets of the slot for the key. -/
def text (h : Header) : String :=
  "magic:             " ++ wordText magicNumber ++
  "\nheader size:       " ++ toString Layout.headerSize ++
  "\nciphertext length: " ++ toString h.ciphertextLength.toNat ++
  "\niv:                " ++ h.iv.hex ++
  "\nauth tag:          " ++ h.authTag.hex ++
  "\nkey blob head:     " ++ Octets.hex (h.keySlot.octets.take 16)

end Header

/-- The length of a payload as it stands in the header. -/
def payloadLengthField (n : Nat) : Except Failure UInt32 :=
  if n < UInt32.size then pure (UInt32.ofNat n) else throw (.header (.payloadTooLong n))

end SealedImage
