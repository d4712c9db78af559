import SealedImage.Octets.Basic
import SealedImage.Scheme

/-!
# Options of encryption

What a key file cannot express: the scheme to use without a key, and the seed of the device key that is
made then.
-/

namespace SealedImage

structure SealOptions where
  fallback : Scheme
  deviceSeed : Option (Block 32)
deriving DecidableEq

def SealOptions.standard : SealOptions :=
  ⟨.standard, none⟩

end SealedImage
