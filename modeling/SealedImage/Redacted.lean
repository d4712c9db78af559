import SealedImage.Opening.Decrypt
import SealedImage.Sealing.Encrypt

/-!
# Descriptions without secrets

Values that hold or accompany secrets are described by their kinds, schemes and lengths alone.
-/

namespace SealedImage

def Scheme.describe : Scheme → String
  | rsa3072 => "Rsa3072"
  | ecc256 => "Ecc256"

/-- A key, described. -/
def KeyMaterial.describe (key : KeyMaterial) : String :=
  key.kind.text

/-- A device key, described. -/
def DeviceKey.describe (_ : DeviceKey) : String :=
  "DeviceKey \x7b .. \x7d"

/-- A value that may be absent, described. -/
def describeOption {α : Type} (describe : α → String) : Option α → String
  | none => "None"
  | some a => "Some(" ++ describe a ++ ")"

/-- A header, described. -/
def Header.describe (h : Header) : String :=
  "ContainerHeader \x7b ciphertext_len: " ++ toString h.ciphertextLength.toNat ++ ", .. \x7d"

/-- Options of encryption, described. -/
def SealOptions.describe (o : SealOptions) : String :=
  "EncryptOptions \x7b fallback_scheme: " ++ o.fallback.describe ++ ", device_seed: " ++
    describeOption (fun _ => "\"..\"") o.deviceSeed ++ " \x7d"

/-- The summary of an encryption, described. -/
def SealSummary.describe (s : SealSummary) : String :=
  "EncryptSummary \x7b scheme: " ++ s.scheme.describe ++ ", payload_len: " ++
    toString s.payloadLength ++ ", container_len: " ++ toString s.containerLength ++
    ", generated_device: " ++ describeOption DeviceKey.describe s.device ++ " \x7d"

/-- The summary of a decryption, described. -/
def OpenSummary.describe (s : OpenSummary) : String :=
  "DecryptSummary \x7b scheme: " ++ s.scheme.describe ++ ", plaintext_len: " ++
    toString s.plaintextLength ++ " \x7d"

end SealedImage
