import SealedImage.Image.Layout
import SealedImage.Scheme

/-!
# The slot for the key

What the header carries for the recipient to recover the content key: under the RSA scheme the encrypted
content key, which fills the slot, under the ECC scheme the point of the sender and a salt. Reading a slot
depends on the scheme, and every slot can be read under both.
-/

namespace SealedImage

inductive KeyBlob
  | rsa (wrapped : Block 384)
  | ecc (point : Block 64) (salt : Block 32)
deriving DecidableEq

namespace KeyBlob

def scheme : KeyBlob → Scheme
  | rsa _ => .rsa3072
  | ecc _ _ => .ecc256

/-- The slot that a key blob fills, with zeros behind a point and a salt. -/
def toSlot : KeyBlob → Block 384
  | rsa wrapped => wrapped
  | ecc point salt => (point.append salt).append (Block.replicate Layout.eccReserved.size 0)

/-- What a slot means under a scheme. What stands behind a point and a salt is not looked at. -/
def ofSlot (scheme : Scheme) (slot : Block 384) : KeyBlob :=
  match scheme with
  | .rsa3072 => rsa slot
  | .ecc256 =>
    ecc (Block.cut slot.octets (Layout.eccPoint.offset - Layout.keySlot.offset) 64
        (by rw [slot.length_octets]; decide))
      (Block.cut slot.octets (Layout.eccSalt.offset - Layout.keySlot.offset) 32
        (by rw [slot.length_octets]; decide))

end KeyBlob

end SealedImage
