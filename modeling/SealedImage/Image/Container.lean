import SealedImage.Image.Header

/-!
# Images

An image is a header with a ciphertext of the length that the header tells. `Container.ofOctets` accepts a
string of octets if and only if it is one, whatever its reserved octets are, and needs no key for that.
-/

namespace SealedImage

structure Container where
  header : Header
  ciphertext : Octets
deriving DecidableEq

namespace Container

def ofOctets (xs : Octets) : Except Failure Container := do
  let header ← Header.parse xs
  let declared := header.ciphertextLength.toNat
  let actual := xs.length - Layout.headerSize
  if declared = actual then pure ⟨header, xs.drop Layout.headerSize⟩
  else throw (.header (.lengthMismatch declared actual))

def toOctets (c : Container) : Octets :=
  c.header.toOctets ++ c.ciphertext

end Container

end SealedImage
