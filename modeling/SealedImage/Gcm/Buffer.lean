import SealedImage.Failure
import SealedImage.Gcm.Mode

/-!
# Sealing in place

A text is sealed and opened in the buffer that holds it, with its tag apart. A failure leaves the buffer as
it was: a text beyond the limit is not sealed, and a ciphertext is not opened before its tag is judged.
-/

namespace SealedImage

/-- A step on a buffer, which ends in a result or a failure. -/
abbrev InPlace (α : Type) := ExceptT Failure (StateM Octets) α

/-- What a step on a buffer ends in, and what it leaves in the buffer. -/
def InPlace.outcome {α : Type} (step : InPlace α) (buffer : Octets) : Except Failure α × Octets :=
  step.run.run buffer

namespace Gcm

/-- Seals the text in the buffer, and gives its tag. -/
def sealInPlace (f : BlockFunction) (iv : Block 16) : InPlace (Block 16) := do
  match encrypt f iv (← get) with
  | none => throw (.crypto .payloadLimit)
  | some (ciphertext, t) =>
    set ciphertext
    pure t

/-- Opens the ciphertext in the buffer, if the tag is right. -/
def openInPlace (f : BlockFunction) (iv t : Block 16) : InPlace Unit := do
  match decrypt? f iv (← get) t with
  | none => throw .authentication
  | some plaintext => set plaintext

end Gcm

end SealedImage
