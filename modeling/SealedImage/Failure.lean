import SealedImage.Octets.Hex
import SealedImage.Asn1.ObjectIdentifier
import SealedImage.Rsa.Key
import SealedImage.Scheme

/-!
# Failures

Every operation on images and keys ends in a result or in one failure. A failure belongs to one of seven
categories, which decide the exit code of the command, and has a cause, which decides the text of its
message (`Failure.message`), but for what libraries say in words of their own (`Wording`).
-/

namespace SealedImage

/-- The words of libraries; nothing is assumed of them. -/
structure Wording where
  /-- What the reader of structures finds wrong with a document, by its label. -/
  misshapen (label : String) (document : Octets) : String
  /-- What the parser of arguments answers by itself, when it is asked for the version or for help. -/
  answer? (arguments : List String) : Option String

/-- Why reading from or writing to a file or a device failed. -/
inductive IoFault
  | notFound
  | notADirectory
  | isADirectory
  | alreadyExists
  | busy
  | nameTooLong
  | nulInPath
  | notUtf8
  /-- A write accepted nothing. -/
  | nothingAccepted
  /-- The input ended before all octets that were asked for. -/
  | unexpectedEnd
  /-- The device reports a fault of its own; `ended` if it takes its input for ended. -/
  | reported (ended : Bool) (text : String)
deriving DecidableEq

namespace IoFault

/-- The fault in words; those of the system carry its error number. -/
def text : IoFault → String
  | notFound => "No such file or directory (os error 2)"
  | notADirectory => "Not a directory (os error 20)"
  | isADirectory => "Is a directory (os error 21)"
  | alreadyExists => "File exists (os error 17)"
  | busy => "Device or resource busy (os error 16)"
  | nameTooLong => "File name too long (os error 36)"
  | nulInPath => "file name contained an unexpected NUL byte"
  | notUtf8 => "stream did not contain valid UTF-8"
  | nothingAccepted => "failed to write whole buffer"
  | unexpectedEnd => "failed to fill whole buffer"
  | reported _ text => text

/-- The fault says that the input ended too early. -/
def isUnexpectedEnd : IoFault → Bool
  | unexpectedEnd => true
  | reported ended _ => ended
  | _ => false

end IoFault

/-- What is wrong with the structure of an image. -/
inductive HeaderFault
  /-- A string of this length holds no magic number. -/
  | tooShort (length : Nat)
  /-- The input ended before the magic number. -/
  | noMagic
  /-- A string of this length holds no whole header. -/
  | truncated (length : Nat)
  | lengthMismatch (declared actual : Nat)
  | payloadTooLong (length : Nat)
deriving DecidableEq

def HeaderFault.text : HeaderFault → String
  | tooShort n => s!"input too short: {n} bytes"
  | noMagic => "input too short for magic"
  | truncated n => s!"truncated header: {n} of 512 bytes"
  | lengthMismatch declared actual =>
    s!"ciphertext length field says {declared} bytes, container holds {actual}"
  | payloadTooLong n => s!"payload of {n} bytes exceeds the 32-bit length field"

inductive KeyFault
  | unreadableKey (path : String) (fault : IoFault)
  | unreadableSeed (path : String) (fault : IoFault)
  | seedLength (length : Nat)
  | seedOutOfRange
  | notPem
  | unknownLabel (label : String)
  /-- The structure of this label has the right shape, but holds no key of its algorithm. -/
  | malformed (label : String) (algorithm : ObjectIdentifier)
  /-- The structure of this label does not have the right shape. -/
  | misshapen (label : String) (document : Octets)
  | rsaSize (bits : Nat)
  | rsaKeyRequired
  | recipientRequired
  | p256KeyRequired
  | privateKeyRequired
  | wrongKind (scheme : Scheme)
  | invalidPoint
  | unwrapFailed
  | contentKeyLength (length : Nat)
deriving DecidableEq

def KeyFault.text (wording : Wording) : KeyFault → String
  | unreadableKey path fault => "cannot read key file " ++ path ++ ": " ++ fault.text
  | unreadableSeed path fault => "cannot read seed file " ++ path ++ ": " ++ fault.text
  | seedLength n => s!"seed file must hold exactly 32 bytes, found {n}"
  | seedOutOfRange => "device seed yields an out-of-range P-256 scalar"
  | notPem => "key file is not valid PEM"
  | unknownLabel label => "unrecognized PEM label \"" ++ label ++ "\""
  | malformed label algorithm => "malformed " ++ label ++ " for algorithm " ++ algorithm.text
  | misshapen label document => "malformed " ++ label ++ ": " ++ wording.misshapen label document
  | rsaSize bits => s!"RSA key must be 3072-bit, got {bits}-bit"
  | rsaKeyRequired => "RSA scheme requires an RSA key"
  | recipientRequired => "RSA scheme requires a recipient key file"
  | p256KeyRequired => "ECC scheme requires a P-256 key"
  | privateKeyRequired => "decryption requires a private key"
  | wrongKind scheme => "key blob parsed as " ++ scheme.text ++ " does not match the key"
  | invalidPoint => "key blob carries an invalid P-256 public point"
  | unwrapFailed => "RSA unwrap failed: wrong key or corrupted key blob"
  | contentKeyLength n => s!"unwrapped content key is {n} bytes, expected 32"

/-- What is not supported about a key that is well formed. -/
inductive SchemeFault
  | curve (curve : ObjectIdentifier)
  | algorithm (algorithm : ObjectIdentifier)
deriving DecidableEq

def SchemeFault.text : SchemeFault → String
  | curve o => "EC curve " ++ o.text ++ " (only P-256 is supported)"
  | algorithm o => "key algorithm " ++ o.text

inductive CryptoFault
  | wrap (defect : Rsa.Defect)
  | wrappedLength (length : Nat)
  | pointEncoding
  | noDeviceSeed
  | noKeyPair
  | payloadLimit
  | noSummary
  /-- A staged write gave up on purpose. -/
  | abandoned (text : String)
deriving DecidableEq

def CryptoFault.text : CryptoFault → String
  | wrap defect => "RSA wrap failed: " ++ defect.text
  | wrappedLength n => s!"RSA wrap produced {n} bytes, expected 384"
  | pointEncoding => "unexpected SEC1 encoding of P-256 public key"
  | noDeviceSeed => "no valid device seed after 16 attempts"
  | noKeyPair => "RSA key generation failed: invalid exponent"
  | payloadLimit => "AES-GCM encryption failed: aead::Error"
  | noSummary => "encryption produced no summary"
  | abandoned text => text

inductive Category
  | io
  | header
  | invalidMagic
  | keyMaterial
  | authentication
  | unsupportedScheme
  | crypto
deriving DecidableEq

namespace Category

/-- The exit code of a command that fails; zero to two are never used. -/
def exitCode : Category → Nat
  | io => 3
  | header => 4
  | invalidMagic => 5
  | keyMaterial => 6
  | authentication => 7
  | unsupportedScheme => 8
  | crypto => 9

/-- The message for a failure of a category with the given detail. -/
def message (category : Category) (detail : String) : String :=
  match category with
  | io => "I/O error: " ++ detail
  | header => "Header error: " ++ detail
  | invalidMagic => "Magic verification failed: found " ++ detail
  | keyMaterial => "Key material error: " ++ detail
  | authentication => "Authentication failed: ciphertext or tag corrupted, or wrong key"
  | unsupportedScheme => "Unsupported scheme: " ++ detail
  | crypto => "Crypto error: " ++ detail

end Category

inductive Failure
  | io (fault : IoFault)
  | header (fault : HeaderFault)
  | invalidMagic (found : UInt32)
  | keyMaterial (fault : KeyFault)
  | authentication
  | unsupportedScheme (fault : SchemeFault)
  | crypto (fault : CryptoFault)
deriving DecidableEq

namespace Failure

def category : Failure → Category
  | io _ => .io
  | header _ => .header
  | invalidMagic _ => .invalidMagic
  | keyMaterial _ => .keyMaterial
  | authentication => .authentication
  | unsupportedScheme _ => .unsupportedScheme
  | crypto _ => .crypto

/-- The detail that the message of a failure shows. -/
def detail (wording : Wording) : Failure → String
  | io fault => fault.text
  | header fault => fault.text
  | invalidMagic found => wordText found
  | keyMaterial fault => fault.text wording
  | authentication => ""
  | unsupportedScheme fault => fault.text
  | crypto fault => fault.text

def message (wording : Wording) (f : Failure) : String :=
  f.category.message (f.detail wording)

def exitCode (f : Failure) : Nat :=
  f.category.exitCode

end Failure

end SealedImage
