import SealedImage.Action
import SealedImage.Hash.Hmac

/-!
# Key agreement and key transport

The two ways to share a secret with the owner of a key: agreement on P-256 between the key and a new key of
the sender, from which the content key is derived, and encryption of the content key with RSA.
-/

namespace SealedImage

/-- The purpose that content keys are derived for. -/
def contentKeyPurpose : Octets :=
  "_esp_enc_img_ecc".toUTF8.toList

/-- The content key of a shared secret and a salt. -/
def contentKey (secret salt : Block 32) : Block 32 :=
  Hmac.expandKey secret.octets salt.octets contentKeyPurpose

namespace P256

/-- A new secret key: 32 octets, drawn again while out of range. -/
def drawSecretKey : Draw SecretKey :=
  Draw.retry (Draw.block 32) fun b => SecretKey.ofNat? b.toNat

def decodePoint (raw : Block 64) : Except Failure PublicKey :=
  match PublicKey.ofRaw? raw with
  | some key => .ok key
  | none => .error (.keyMaterial .invalidPoint)

/-- The 64 octets of a point, which must not be infinity. -/
def encodePoint (p : Point) : Except Failure (Block 64) :=
  match PublicKey.ofPoint? p with
  | some key => .ok key.raw
  | none => .error (.crypto .pointEncoding)

/-- The point of a new key of the sender and the secret that it shares with the recipient. -/
def agreeEphemeral {σ : Type} (recipient : PublicKey) : Action σ (Block 64 × Block 32) := do
  let sender ← Action.draw drawSecretKey
  let point ← Action.ofExcept (encodePoint sender.point)
  pure (point, sender.agree recipient)

end P256

namespace Rsa

/-- The filler of a padded message: octets drawn at once, of which the zeros are drawn again. -/
def drawFiller (n : Nat) : Draw Octets := fun tape => do
  let (xs, tape) ← Draw.block n tape
  Draw.replaceZeros xs.octets tape

def wrap {σ : Type} (recipient : PublicKey) (key : Block 32) : Action σ (Block 384) := do
  Action.ofExcept recipient.checkSize
  if let some defect := recipient.defect? then throw (.crypto (.wrap defect))
  let filler ← Action.draw (drawFiller (recipient.fillerLength key.octets.length))
  let wrapped := recipient.encrypt filler key.octets
  match Block.ofOctets? 384 wrapped with
  | some block => pure block
  | none => throw (.crypto (.wrappedLength wrapped.length))

def unwrap (key : PrivateKey) (wrapped : Block 384) : Except Failure (Block 32) := do
  key.publicKey.checkSize
  match key.decrypt? wrapped.octets with
  | none => throw (.keyMaterial .unwrapFailed)
  | some message =>
    match Block.ofOctets? 32 message with
    | some contentKey => pure contentKey
    | none => throw (.keyMaterial (.contentKeyLength message.length))

end Rsa

end SealedImage
