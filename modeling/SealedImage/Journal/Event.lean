import SealedImage.Key.Material

/-!
# The journal

What an operation reports while it runs: events of fixed kinds, which carry paths, lengths and kinds of
keys, and never a secret. Each event has a level, an origin and a message.
-/

namespace SealedImage

/-- How grave an event is, the gravest first. -/
inductive Level
  | error
  | warn
  | info
  | debug
  | trace
deriving DecidableEq

namespace Level

/-- The number of a level, larger for lesser events. -/
def rank : Level → Nat
  | error => 1
  | warn => 2
  | info => 3
  | debug => 4
  | trace => 5

def text : Level → String
  | error => "ERROR"
  | warn => "WARN"
  | info => "INFO"
  | debug => "DEBUG"
  | trace => "TRACE"

end Level

def KeyKind.text : KeyKind → String
  | rsaPrivate => "RsaPrivate(\"..\")"
  | rsaPublic => "RsaPublic(\"..\")"
  | eccPrivate => "EccPrivate(\"..\")"
  | eccPublic => "EccPublic(\"..\")"

inductive Event
  | encrypting (input : String)
  | decrypting (input : String)
  | wrote (output : String) (scheme : Scheme) (length : Nat)
  | keyLoaded (kind : KeyKind)
  | establishing (scheme : Scheme) (keySupplied : Bool)
  | deviceGenerated
  | seedRejected (attempt : Nat)
  | payloadEncrypted (scheme : Scheme) (length : Nat)
  | containerParsed (ciphertextLength : Nat)
  | containerDecrypted (scheme : Scheme) (length : Nat)
  | fileDecrypted (scheme : Scheme) (length : Nat) (output : String)
  | deviceKeysWritten (directory : String)
  | rsaKeysWritten (directory : String)
deriving DecidableEq

namespace Event

def level : Event → Level
  | keyLoaded _ | establishing _ _ | containerParsed _ => .debug
  | seedRejected _ => .warn
  | _ => .info

def origin : Event → String
  | encrypting _ | decrypting _ | wrote _ _ _ => "encimg"
  | keyLoaded _ => "encimg_rs::keys::material"
  | establishing _ _ | deviceGenerated => "encimg_rs::encryptor::establish"
  | seedRejected _ => "encimg_rs::keys::device"
  | payloadEncrypted _ _ => "encimg_rs::encryptor::encrypt"
  | containerParsed _ => "encimg_rs::decryptor::read"
  | containerDecrypted _ _ => "encimg_rs::decryptor::decrypt"
  | fileDecrypted _ _ _ => "encimg_rs::file_ops"
  | deviceKeysWritten _ | rsaKeysWritten _ => "encimg_rs::keys::keygen"

/-- The message of an event, its details behind it. -/
def message : Event → String
  | encrypting input => "encrypting image input=" ++ input
  | decrypting input => "decrypting image input=" ++ input
  | wrote output scheme n =>
    "wrote " ++ output ++ " scheme=" ++ scheme.text ++ " container_len=" ++ toString n
  | keyLoaded kind =>
    "loaded key material key=" ++ kind.text ++ " scheme=" ++ kind.scheme.text
  | establishing scheme keySupplied =>
    "establishing content key scheme=" ++ scheme.text ++ " key_supplied=" ++ toString keySupplied
  | deviceGenerated => "no key supplied, generated ECC-256 device key"
  | seedRejected attempt => "device seed rejected, redrawing attempt=" ++ toString attempt
  | payloadEncrypted scheme n =>
    "payload encrypted scheme=" ++ scheme.text ++ " payload_len=" ++ toString n
  | containerParsed n => "magic verified, header parsed ciphertext_len=" ++ toString n
  | containerDecrypted scheme n =>
    "container decrypted scheme=" ++ scheme.text ++ " plaintext_len=" ++ toString n
  | fileDecrypted scheme n output =>
    "container decrypted scheme=" ++ scheme.text ++ " plaintext_len=" ++ toString n ++
      " output=" ++ output
  | deviceKeysWritten directory => "ECC-256 device key pair generated dir=" ++ directory
  | rsaKeysWritten directory => "RSA-3072 key pair generated dir=" ++ directory

def line (e : Event) : String :=
  e.level.text ++ " " ++ e.origin ++ ": " ++ e.message

end Event

end SealedImage
