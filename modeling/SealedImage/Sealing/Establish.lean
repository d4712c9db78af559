import SealedImage.Image.KeySlot
import SealedImage.Key.Agreement
import SealedImage.Key.Device
import SealedImage.Sealing.Options

/-!
# Establishing a content key

A new content key for one image, together with the key blob from which the recipient recovers it. Without
a key, the ECC scheme makes a device key and addresses the image to it.
-/

namespace SealedImage

/-- A content key, the key blob that carries it, and the device key if one was made. -/
structure Established where
  contentKey : Block 32
  keyBlob : KeyBlob
  device : Option DeviceKey

namespace Established

variable {σ : Type}

/-- A content key for a recipient under the RSA scheme. -/
def forRsa (recipient : Rsa.PublicKey) : Action σ Established := do
  let contentKey ← Action.draw (Draw.block 32)
  let wrapped ← Rsa.wrap recipient contentKey
  pure ⟨contentKey, .rsa wrapped, none⟩

/-- A content key for a recipient under the ECC scheme. -/
def forEcc (recipient : P256.PublicKey) (device : Option DeviceKey) : Action σ Established := do
  let (point, secret) ← P256.agreeEphemeral recipient
  let salt ← Action.draw (Draw.block 32)
  pure ⟨SealedImage.contentKey secret salt, .ecc point salt, device⟩

/-- The device key of the given seed, or a new one. -/
def deviceKey (options : SealOptions) : Action σ DeviceKey :=
  match options.deviceSeed with
  | some seed => Action.ofExcept (DeviceKey.ofSeed seed)
  | none => DeviceKey.generate

/-- The recipient of an image, which has to have a public key. -/
def recipient (key : Option P256.PublicKey) : Action σ P256.PublicKey :=
  match key with
  | some key => pure key
  | none => throw (.keyMaterial .p256KeyRequired)

end Established

/-- A new content key for the owner of a key, or for a device if there is none. -/
def establish {σ : Type} (key : Option KeyMaterial) (options : SealOptions) :
    Action σ Established := do
  let scheme := Scheme.resolve key options.fallback
  Action.report (.establishing scheme key.isSome)
  match scheme, key with
  | .rsa3072, some key =>
    match key.rsaRecipient? with
    | some recipient => Established.forRsa recipient
    | none => throw (.keyMaterial .rsaKeyRequired)
  | .rsa3072, none => throw (.keyMaterial .recipientRequired)
  | .ecc256, some key =>
    Established.forEcc (← Established.recipient key.eccRecipient?) none
  | .ecc256, none =>
    let device ← Established.deviceKey options
    Action.report .deviceGenerated
    Established.forEcc (← Established.recipient device.publicKey?) (some device)

end SealedImage
