import SealedImage.Action
import SealedImage.Storage.FileSystem
import SealedImage.Stream.Sink

/-!
# Atomic writes

A file is written under a fresh name beside its destination and renamed when it is complete. If writing or
renaming fails, the staged file is removed, and the file system is as it was before. What the writes to the
staged file meet is up to the medium.
-/

namespace SealedImage

/-- What a new file will meet: its writes, their flush, and the step that brings them to the disk. -/
structure Medium where
  acceptances : List Acceptance
  flushFault : Option IoFault
  syncFault : Option IoFault

namespace Medium

def perfect : Medium :=
  ⟨[], none, none⟩

def newFile (medium : Medium) : Sink :=
  ⟨medium.acceptances, medium.flushFault, [], 0⟩

def sync (medium : Medium) : Except IoFault Unit :=
  medium.syncFault.elim (.ok ()) .error

end Medium

/-- The medium of each new file, by the path that the file is written to. -/
abbrev Media := String → Medium

namespace Media

def perfect : Media :=
  fun _ => .perfect

end Media

namespace FileSystem

/-- The number of characters of the longest last name. -/
def longestName (fs : FileSystem) : Nat :=
  fs.entries.foldl (fun n e => max n (e.1.getLast?.getD "").length) 0

def freshName (fs : FileSystem) : String :=
  ".tmp" ++ String.ofList (List.replicate fs.longestName 'x')

/-- The directory that a path has its last name in; the working directory for a path without names. -/
def directoryOf (fs : FileSystem) (path : String) : Except IoFault Place :=
  match ((Path.names path).filter fun name => name != ".").dropLast with
  | [] =>
    .ok (if Path.isAbsolute path ∧ Path.names path ≠ [] then [] else fs.workingDirectory)
  | names =>
    if names.any (·.contains '\x00') then .error .nulInPath else fs.walk (fs.start path) names

def stage (fs : FileSystem) (path : String) : Except IoFault Place := do
  let directory ← fs.directoryOf path
  pure (directory ++ [fs.freshName])

/-- The file system with contents at the place that a path names, as a renamed file comes there. -/
def replaceFile (fs : FileSystem) (path : String) (contents : Octets) :
    Except IoFault FileSystem := do
  match ← fs.locate path with
  | .directory _ => throw .busy
  | .named parent name slash =>
    let place := parent ++ [name]
    if slash then throw .notADirectory
    else if fs.entryAt? place = some .directory then throw .isADirectory
    else pure (fs.put place (.file contents))

end FileSystem

namespace Action

variable {α : Type}

def files : Action FileSystem FileSystem := do
  pure (← get).store

def setFiles (fs : FileSystem) : Action FileSystem Unit :=
  modify fun s => { s with store := fs }

/-- Writes what an action produces to the file that a path names, all of it or nothing. -/
def writeAtomicallyOn (medium : Medium) (path : String) (produce : Action Sink α) : Action FileSystem α := do
  let before ← files
  let staged ← ofIo (before.stage path)
  setFiles (before.put staged (.file []))
  let (result, sink) ← onOwnStore medium.newFile produce
  let written := (← files).put staged (.file sink.written)
  setFiles written
  match result with
  | .error failure =>
    setFiles (written.remove staged)
    throw failure
  | .ok a =>
    match (do medium.sync; (written.remove staged).replaceFile path sink.written : Except IoFault FileSystem) with
    | .error fault =>
      setFiles (written.remove staged)
      throw (.io fault)
    | .ok after =>
      setFiles after
      pure a

end Action

end SealedImage
