import SealedImage.Key.Encoding
import SealedImage.Rsa.Generation
import SealedImage.Storage.Staging

/-!
# Key pairs in files

New keys are written to files of fixed names in one directory, each of them atomically and one after the
other on a medium of its own, and the seed of a device key is read back from a file.
-/

namespace SealedImage

/-- The paths of a written key pair, and of the seed of a device key. -/
structure KeyFiles where
  privateKey : String
  publicKey : String
  seed : Option String
deriving DecidableEq

namespace KeyFiles

def devicePrivateName : String := "device_priv_key.pem"
def devicePublicName : String := "device_pub_key.pem"
def deviceSeedName : String := "device_hmac_key.bin"
def rsaPrivateName : String := "rsa_priv_key.pem"
def rsaPublicName : String := "rsa_pub_key.pem"

end KeyFiles

namespace Action

/-- The seed in the file that a path names, which has to hold 32 octets. -/
def loadSeed (path : String) : Action FileSystem (Block 32) := do
  match (← files).contentsOf path with
  | .error fault => throw (.keyMaterial (.unreadableSeed path fault))
  | .ok contents =>
    match Block.ofOctets? 32 contents with
    | some seed => pure seed
    | none => throw (.keyMaterial (.seedLength contents.length))

def writeWholeOn (medium : Medium) (path : String) (contents : Octets) : Action FileSystem Unit :=
  writeAtomicallyOn medium path (onStore (Sink.writeAll contents))

/-- Writes a device key with its public key and its seed. -/
def writeDeviceKeyOn (media : Media) (directory : String) (device : DeviceKey) : Action FileSystem KeyFiles := do
  match device.publicKey? with
  | none => throw (.crypto .pointEncoding)
  | some publicKey =>
    let privateKey := Path.join directory KeyFiles.devicePrivateName
    let publicPath := Path.join directory KeyFiles.devicePublicName
    let seed := Path.join directory KeyFiles.deviceSeedName
    writeWholeOn (media privateKey) privateKey (device.secret.armored publicKey).toUTF8.toList
    writeWholeOn (media publicPath) publicPath publicKey.armored.toUTF8.toList
    writeWholeOn (media seed) seed device.seed.octets
    report (.deviceKeysWritten directory)
    pure ⟨privateKey, publicPath, some seed⟩

/-- Writes the device key of a seed, or of a new seed. -/
def generateEccPairOn (media : Media) (directory : String) (seed : Option (Block 32)) :
    Action FileSystem KeyFiles := do
  let device ← match seed with
    | some seed => ofExcept (DeviceKey.ofSeed seed)
    | none => DeviceKey.generate
  writeDeviceKeyOn media directory device

def writeRsaKeyOn (media : Media) (directory : String) (key : Rsa.PrivateKey) : Action FileSystem KeyFiles := do
  let privateKey := Path.join directory KeyFiles.rsaPrivateName
  let publicPath := Path.join directory KeyFiles.rsaPublicName
  writeWholeOn (media privateKey) privateKey key.armored.toUTF8.toList
  writeWholeOn (media publicPath) publicPath key.publicKey.armored.toUTF8.toList
  report (.rsaKeysWritten directory)
  pure ⟨privateKey, publicPath, none⟩

def generateRsaPairOn (media : Media) (directory : String) : Action FileSystem KeyFiles := do
  let key ← draw Rsa.drawKey
  writeRsaKeyOn media directory key

end Action

end SealedImage
