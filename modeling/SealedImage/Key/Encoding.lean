import SealedImage.Asn1.KeyInfo
import SealedImage.Key.Device
import SealedImage.Key.Loading
import SealedImage.Number.Inverse

/-!
# Written keys

The armored text under which new keys are stored: keys on P-256 and public keys with their algorithm, RSA
private keys as their bare numbers.
-/

namespace SealedImage

open Asn1 Pem

def armored (label : String) (contents : Octets) : String :=
  String.ofList (Armor.write ⟨label.toList, contents⟩)

/-- The text of a private key on P-256, with its public key. -/
def P256.SecretKey.armored (key : P256.SecretKey) (publicKey : P256.PublicKey) : String :=
  SealedImage.armored KeyMaterial.privateLabel
    (PrivateKeyInfo.write .p256 (EcPrivateKey.write key.octets.octets publicKey.uncompressed))

/-- The text of a public key on P-256. -/
def P256.PublicKey.armored (key : P256.PublicKey) : String :=
  SealedImage.armored KeyMaterial.publicLabel (PublicKeyInfo.write .p256 key.uncompressed)

/-- The numbers of a private RSA key with two factors, from its version on. -/
def Rsa.PrivateKey.numbers (key : Rsa.PrivateKey) : List Nat :=
  let p := key.factor₁
  let q := key.factor₂
  [0, key.publicKey.modulus, key.publicKey.exponent, key.exponent, p, q, key.exponent % (p - 1),
    key.exponent % (q - 1), (Number.inverse? q p).getD 0]

def Rsa.PrivateKey.armored (key : Rsa.PrivateKey) : String :=
  SealedImage.armored KeyMaterial.rsaPrivateLabel (writeNumbers key.numbers)

def Rsa.PublicKey.armored (key : Rsa.PublicKey) : String :=
  SealedImage.armored KeyMaterial.publicLabel
    (PublicKeyInfo.write .rsa (writeNumbers [key.modulus, key.exponent]))

end SealedImage
