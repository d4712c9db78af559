/-!
# Schemes

An image carries the key of its content under one of two schemes. Which one follows from the key of the
recipient.
-/

namespace SealedImage

inductive Scheme
  /-- A random content key, encrypted with RSA under a modulus of 384 octets. -/
  | rsa3072
  /-- A content key derived from a key agreement on P-256. -/
  | ecc256
deriving DecidableEq

namespace Scheme

def text : Scheme → String
  | rsa3072 => "RSA-3072"
  | ecc256 => "ECC-256"

/-- The scheme that is used where none is chosen. -/
def standard : Scheme := ecc256

end Scheme

end SealedImage
