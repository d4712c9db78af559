import SealedImage.Action
import SealedImage.Hash.Hmac

/-!
# Device keys

A device keeps a seed of 32 octets and stretches it into its secret key on P-256. A new seed is drawn until
its key is in range, sixteen times at most; a given seed is never replaced.
-/

namespace SealedImage

/-- A seed with the secret key that it stretches into. -/
structure DeviceKey where
  seed : Block 32
  secret : P256.SecretKey
deriving DecidableEq

namespace DeviceKey

def salt : Octets :=
  [0x0e, 0x21, 0x60, 0x64, 0x2d, 0xae, 0x76, 0xd3, 0x34, 0x48, 0xe4, 0x3d, 0x77, 0x20, 0x12, 0x3d,
    0x9f, 0x3b, 0x1e, 0xce, 0xb8, 0x8e, 0x57, 0x3a, 0x4e, 0x8f, 0x7f, 0xb9, 0x4f, 0xf0, 0xc8, 0x69]

def rounds : Nat := 2048

/-- The scalar that a seed stretches into, which may be out of range. -/
def scalar (seed : Block 32) : Block 32 :=
  Hmac.stretch seed.octets salt rounds

/-- The device key of a seed, for a given derivation of scalars. -/
def ofSeedWith (derive : Block 32 → Block 32) (seed : Block 32) : Except Failure DeviceKey :=
  match P256.SecretKey.ofNat? (derive seed).toNat with
  | some secret => .ok ⟨seed, secret⟩
  | none => .error (.keyMaterial .seedOutOfRange)

def ofSeed (seed : Block 32) : Except Failure DeviceKey :=
  ofSeedWith scalar seed

def maxAttempts : Nat := 16

/-- A device key of a new seed, for a given derivation of scalars, with `left` attempts to go. -/
def generateFrom {σ : Type} (derive : Block 32 → Block 32) : (left : Nat) → Action σ DeviceKey
  | 0 => throw (.crypto .noDeviceSeed)
  | left + 1 => do
    let seed ← Action.draw (Draw.block 32)
    match ofSeedWith derive seed with
    | .ok key => pure key
    | .error (.keyMaterial _) => do
      Action.report (.seedRejected (maxAttempts - left))
      generateFrom derive left
    | .error e => throw e

/-- A device key of a new seed, for a given derivation of scalars. -/
def generateWith {σ : Type} (derive : Block 32 → Block 32) : Action σ DeviceKey :=
  generateFrom derive maxAttempts

def generate {σ : Type} : Action σ DeviceKey :=
  generateWith scalar

def publicKey? (key : DeviceKey) : Option P256.PublicKey :=
  key.secret.publicKey?

end DeviceKey

end SealedImage
