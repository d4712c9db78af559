import SealedImage.Aes.Gcm
import SealedImage.Image.Container
import SealedImage.Key.Agreement
import SealedImage.Stream.Sink
import SealedImage.Stream.Source

/-!
# Decrypting an image

An image is judged by its structure first, then the content key is recovered with a private key, then the
tag is verified. Only then does any octet reach the output.
-/

namespace SealedImage

structure OpenSummary where
  scheme : Scheme
  plaintextLength : Nat
deriving DecidableEq

def recoverContentKey (header : Header) (key : KeyMaterial) : Except Failure (Block 32) :=
  match key, header.keyBlob key.scheme with
  | .rsaPrivate key, .rsa wrapped => Rsa.unwrap key wrapped
  | .eccPrivate key, .ecc point salt => do
    let peer ← P256.decodePoint point
    pure (contentKey (key.agree peer) salt)
  | .rsaPublic _, _ | .eccPublic _, _ => throw (.keyMaterial .privateKeyRequired)
  | _, blob => throw (.keyMaterial (.wrongKind blob.scheme))

def openContainer (container : Container) (key : KeyMaterial) : Except Failure Octets := do
  let contentKey ← recoverContentKey container.header key
  let (opened, payload) :=
    (Aes.openInPlace contentKey container.header.iv container.header.authTag).outcome container.ciphertext
  opened
  pure payload

def readContainer {σ : Type} (source : Source) : Action σ Container := do
  let octets ← Action.ofIo source.readAll
  let container ← Action.ofExcept (Container.ofOctets octets)
  Action.report (.containerParsed container.header.ciphertextLength.toNat)
  pure container

/-- Decrypts the image that a source delivers, and writes its payload. -/
def decrypt (source : Source) (key : KeyMaterial) : Action Sink OpenSummary := do
  let container ← readContainer source
  let payload ← Action.ofExcept (openContainer container key)
  Action.onStore (Sink.writeAll payload)
  Action.onStore Sink.flush
  Action.report (.containerDecrypted key.scheme payload.length)
  pure ⟨key.scheme, payload.length⟩

/-- Judges whether a source starts with an image, from its first four octets; also gives how many octets
were taken for that. -/
def sniff (source : Source) : Except Failure Unit × Nat :=
  let (taken, fault) := source.take Layout.magic.size
  let verdict := match fault with
    | none => Header.checkMagic taken
    | some fault =>
      if fault.isUnexpectedEnd then .error (.header .noMagic) else .error (.io fault)
  (verdict, taken.length)

end SealedImage
