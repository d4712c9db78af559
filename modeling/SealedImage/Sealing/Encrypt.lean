import SealedImage.Aes.Gcm
import SealedImage.Image.Container
import SealedImage.Sealing.Establish
import SealedImage.Stream.Sink
import SealedImage.Stream.Source

/-!
# Encrypting an image

The whole payload is read and the image is complete before the first octet of it is written, so every
failure but those of writing leaves the output untouched.
-/

namespace SealedImage

structure SealSummary where
  scheme : Scheme
  payloadLength : Nat
  containerLength : Nat
  /-- The device key that was made because there was no key. -/
  device : Option DeviceKey

/-- The image of a payload, and the device key if one was made. -/
def sealPayload {σ : Type} (payload : Octets) (key : Option KeyMaterial) (options : SealOptions) :
    Action σ (Container × Scheme × Option DeviceKey) := do
  let length ← Action.ofExcept (payloadLengthField payload.length)
  let established ← establish key options
  let iv ← Action.draw (Draw.block 16)
  let (tag, ciphertext) := (Aes.sealInPlace established.contentKey iv).outcome payload
  let authTag ← Action.ofExcept tag
  pure (⟨⟨established.keyBlob.toSlot, iv, length, authTag⟩, ciphertext⟩,
    established.keyBlob.scheme, established.device)

def writeHeader (header : Header) : Action Sink Unit :=
  Action.onStore (Sink.writeAll header.toOctets)

/-- Encrypts the payload that a source delivers, and writes the image. -/
def encrypt (source : Source) (key : Option KeyMaterial) (options : SealOptions) :
    Action Sink SealSummary := do
  let payload ← Action.ofIo source.readAll
  let (container, scheme, device) ← sealPayload payload key options
  writeHeader container.header
  Action.onStore (Sink.writeAll container.ciphertext)
  Action.onStore Sink.flush
  Action.report (.payloadEncrypted scheme payload.length)
  pure ⟨scheme, payload.length, Layout.headerSize + payload.length, device⟩

end SealedImage
