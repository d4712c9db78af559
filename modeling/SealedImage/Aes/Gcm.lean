import SealedImage.Aes.Cipher
import SealedImage.Gcm.Buffer

/-!
# AES-256 in Galois counter mode

The payload of an image is sealed with AES-256 as the block function.
-/

namespace SealedImage.Aes

/-- AES-256 under a key, as a function on blocks of 128 bits. -/
def blockFunction (key : Block 32) : Gcm.BlockFunction :=
  let keys := roundKeys key
  fun b => Gcm.toBlock (encryptWith keys (Gcm.ofBlock b))

/-- A text sealed under a key and an initialization vector. -/
def encrypt (key : Block 32) (iv : Block 16) (plaintext : Octets) : Option (Octets × Block 16) :=
  Gcm.encrypt (blockFunction key) iv plaintext

/-- The text that was sealed, if the tag is right. -/
def decrypt? (key : Block 32) (iv : Block 16) (ciphertext : Octets) (t : Block 16) : Option Octets :=
  Gcm.decrypt? (blockFunction key) iv ciphertext t

def sealInPlace (key : Block 32) (iv : Block 16) : InPlace (Block 16) :=
  Gcm.sealInPlace (blockFunction key) iv

def openInPlace (key : Block 32) (iv t : Block 16) : InPlace Unit :=
  Gcm.openInPlace (blockFunction key) iv t

end SealedImage.Aes
