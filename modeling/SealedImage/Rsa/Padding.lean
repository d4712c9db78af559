import SealedImage.Rsa.Key

/-!
# Padded encryption with RSA

A message is padded to the size of the modulus (PKCS#1 v1.5): `00 02`, a filler of non-zero octets, `00`,
the message. `decrypt?` undoes the public operation and takes the message out of the padding; the filler
ends at the first zero octet and has at least eight octets.
-/

namespace SealedImage.Rsa

def pad (filler message : Octets) : Octets :=
  0x00 :: 0x02 :: (filler ++ 0x00 :: message)

def unpad? : Octets → Option Octets
  | 0x00 :: 0x02 :: rest =>
    match rest.dropWhile (· != 0) with
    | [] => none
    | _ :: message => if 8 ≤ (rest.takeWhile (· != 0)).length then some message else none
  | _ => none

/-- The length of the filler for a message of a given length. -/
def PublicKey.fillerLength (k : PublicKey) (message : Nat) : Nat :=
  k.size - message - 3

/-- The message padded with a filler and encrypted, in as many octets as the modulus has. -/
def PublicKey.encrypt (k : PublicKey) (filler message : Octets) : Octets :=
  Octets.ofNat k.size (k.apply (Octets.toNat (pad filler message)))

/-- The message that was padded and encrypted. A result that does not encrypt to the ciphertext again is
refused. -/
def PrivateKey.decrypt? (k : PrivateKey) (ciphertext : Octets) : Option Octets :=
  let c := Octets.toNat ciphertext
  if k.publicKey.defect? = none ∧ c < k.publicKey.modulus then
    let m := k.apply c
    if k.publicKey.apply m = c then unpad? (Octets.ofNat k.publicKey.size m) else none
  else none

end SealedImage.Rsa
