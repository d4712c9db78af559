import SealedImage.P256.Key
import SealedImage.Rsa.Padding
import SealedImage.Failure

/-!
# Keys of a recipient

A key file holds the private or the public half of a key of either scheme. Images are addressed to the
public half and opened with the private one.
-/

namespace SealedImage

/-- A key of either scheme, private or public. -/
inductive KeyMaterial
  | rsaPrivate (key : Rsa.PrivateKey)
  | rsaPublic (key : Rsa.PublicKey)
  | eccPrivate (key : P256.SecretKey)
  | eccPublic (key : P256.PublicKey)
deriving DecidableEq

/-- What a key is, apart from its value. -/
inductive KeyKind
  | rsaPrivate
  | rsaPublic
  | eccPrivate
  | eccPublic
deriving DecidableEq

namespace KeyMaterial

def kind : KeyMaterial → KeyKind
  | rsaPrivate _ => .rsaPrivate
  | rsaPublic _ => .rsaPublic
  | eccPrivate _ => .eccPrivate
  | eccPublic _ => .eccPublic

def rsaRecipient? : KeyMaterial → Option Rsa.PublicKey
  | rsaPrivate key => some key.publicKey
  | rsaPublic key => some key
  | _ => none

/-- The point of the recipient on P-256. -/
def eccRecipient? : KeyMaterial → Option P256.PublicKey
  | eccPrivate key => key.publicKey?
  | eccPublic key => some key
  | _ => none

end KeyMaterial

namespace KeyKind

def scheme : KeyKind → Scheme
  | rsaPrivate | rsaPublic => .rsa3072
  | eccPrivate | eccPublic => .ecc256

def isPrivate : KeyKind → Bool
  | rsaPrivate | eccPrivate => true
  | rsaPublic | eccPublic => false

end KeyKind

def KeyMaterial.scheme (key : KeyMaterial) : Scheme :=
  key.kind.scheme

def KeyMaterial.isPrivate (key : KeyMaterial) : Bool :=
  key.kind.isPrivate

/-- The scheme of a key, or the fallback if there is no key. -/
def Scheme.resolve (key : Option KeyMaterial) (fallback : Scheme) : Scheme :=
  match key with
  | none => fallback
  | some key => key.scheme

/-- The octets that the modulus of an RSA key has to fill. -/
def rsaModulusSize : Nat := 384

/-- An RSA key is used only if its modulus fills exactly 384 octets. -/
def Rsa.PublicKey.checkSize (key : Rsa.PublicKey) : Except Failure Unit :=
  if key.size = rsaModulusSize then pure () else throw (.keyMaterial (.rsaSize key.bits))

/-- The size check of a key of either scheme; keys on P-256 have one size. -/
def KeyMaterial.checkSize : KeyMaterial → Except Failure Unit
  | rsaPrivate key => key.publicKey.checkSize
  | rsaPublic key => key.checkSize
  | eccPrivate _ | eccPublic _ => pure ()

end SealedImage
