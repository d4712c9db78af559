import SealedImage.Octets.Basic

/-!
# The layout of an image

An image is a header of 512 octets and the ciphertext behind it. Each field of the header begins where
the one before it ends. The slot for the key holds, under the ECC scheme, a point and a salt, and zeros
behind them.
-/

namespace SealedImage

structure Span where
  offset : Nat
  size : Nat
deriving DecidableEq

namespace Span

def stop (s : Span) : Nat :=
  s.offset + s.size

def followedBy (s : Span) (size : Nat) : Span :=
  ⟨s.stop, size⟩

end Span

namespace Layout

/-- The magic number, least significant octet first. -/
def magic : Span := ⟨0, 4⟩
def keySlot : Span := magic.followedBy 384
def iv : Span := keySlot.followedBy 16
/-- The length of the ciphertext, least significant octet first. -/
def ciphertextLength : Span := iv.followedBy 4
def authTag : Span := ciphertextLength.followedBy 16
def headerSize : Nat := 512
/-- Zeros up to the end of the header; they have no meaning. -/
def reserved : Span := authTag.followedBy (headerSize - authTag.stop)

/-- The point of the sender, in the slot for the key. -/
def eccPoint : Span := ⟨keySlot.offset, 64⟩
/-- The salt of the derivation, in the slot for the key. -/
def eccSalt : Span := eccPoint.followedBy 32
/-- Zeros up to the end of the slot for the key; they have no meaning. -/
def eccReserved : Span := eccSalt.followedBy (keySlot.stop - eccSalt.stop)

/-- The fields with their names, those of the ECC scheme last. -/
def fields : List (String × Span) :=
  [("magic", magic), ("key_blob", keySlot), ("iv", iv), ("ciphertext_len", ciphertextLength),
    ("auth_tag", authTag), ("reserved", reserved), ("ecc_public_point", eccPoint),
    ("ecc_salt", eccSalt), ("ecc_reserved", eccReserved)]

end Layout

end SealedImage
