import SealedImage.Key.Loading
import SealedImage.Opening.Decrypt
import SealedImage.Sealing.Encrypt
import SealedImage.Storage.Staging

/-!
# Images in files

Encryption, decryption and inspection of files. Outputs are written atomically. An encryption loads its key
before it looks at the input; a decryption judges the structure of the input before it looks at the key.
-/

namespace SealedImage

namespace KeyMaterial

/-- The key that a text holds, with a report of its kind. -/
def loadText {σ : Type} (text : String) : Action σ KeyMaterial := do
  let key ← Action.ofExcept (ofText text.toList)
  Action.report (.keyLoaded key.kind)
  pure key

end KeyMaterial

namespace Action

def readText (fs : FileSystem) (path : String) : Except IoFault String := do
  let contents ← fs.contentsOf path
  match String.fromUTF8? ⟨contents.toArray⟩ with
  | some text => pure text
  | none => throw .notUtf8

/-- The key in the file that a path names. A file that cannot be read is a fault of the key. -/
def loadKey (path : String) : Action FileSystem KeyMaterial := do
  match readText (← files) path with
  | .error fault => throw (.keyMaterial (.unreadableKey path fault))
  | .ok text => KeyMaterial.loadText text

/-- The contents of what a path names; reading a directory fails, but opening it does not. -/
def openSource (path : String) : Action FileSystem Source := do
  match ← ofIo ((← files).openEntry path) with
  | .file contents => pure (Source.ofOctets contents)
  | .directory => pure [.failed .isADirectory]

/-- Encrypts a file. What shows that an image was written is the summary that was left behind. -/
def encryptFileOn (medium : Medium) (input : String) (key : Option String) (output : String)
    (options : SealOptions) : Action FileSystem SealSummary := do
  let key ← match key with
    | none => pure none
    | some path => some <$> loadKey path
  let source ← openSource input
  let summary ← writeAtomicallyOn medium output (some <$> encrypt source key options)
  match summary with
  | some summary => pure summary
  | none => throw (.crypto .noSummary)

/-- Decrypts a file. The payload is written without a flush. -/
def decryptFileOn (medium : Medium) (input key output : String) : Action FileSystem OpenSummary := do
  let container ← readContainer (← openSource input)
  let key ← loadKey key
  let payload ← ofExcept (openContainer container key)
  writeAtomicallyOn medium output (onStore (Sink.writeAll payload))
  report (.fileDecrypted key.scheme payload.length output)
  pure ⟨key.scheme, payload.length⟩

def inspectFile (input : String) : Action FileSystem Header := do
  let container ← readContainer (← openSource input)
  pure container.header

end Action

end SealedImage
