import SealedImage.Command.Run

/-!
# The command line tool

The tool copies what its arguments name from the disk into a file system, fills a tape with random octets,
runs the command, and writes the files that the command changed back to the disk.
-/

namespace SealedImage

namespace Command

/-- The paths of files that a command reads or writes. -/
def paths : Command → List String
  | encrypt input key output | decrypt input key output => [input, key, output]
  | generateEccKey directory seed =>
    [KeyFiles.devicePrivateName, KeyFiles.devicePublicName, KeyFiles.deviceSeedName].map
      (Path.join directory) ++ seed.toList
  | generateRsaKey directory =>
    [KeyFiles.rsaPrivateName, KeyFiles.rsaPublicName].map (Path.join directory)
  | inspect input => [input]

end Command

namespace Disk

def pathOf (place : Place) : String :=
  "/" ++ "/".intercalate place

def entryAt? (place : Place) : IO (Option Entry) := do
  match ← (IO.FS.realPath (pathOf place)).toBaseIO with
  | .error _ => pure none
  | .ok path =>
    if ← path.isDir then pure (some .directory)
    else pure (some (.file (← IO.FS.readBinFile path).toList))

/-- The file system with what the disk holds along the names that lead on from a place. -/
def copyAlong (fs : FileSystem) (place : Place) : (names : List String) → IO FileSystem
  | [] => pure fs
  | name :: rest => do
    if name = "." then copyAlong fs place rest
    else if name = ".." then copyAlong fs place.dropLast rest
    else
      let next := place ++ [name]
      match ← entryAt? next with
      | none => pure fs
      | some entry => copyAlong (fs.put next entry) next rest

/-- A file system with what the disk holds along some paths. -/
def copyOf (paths : List String) : IO FileSystem := do
  let place := Path.names (← IO.currentDir).toString
  let fs ← copyAlong { FileSystem.empty with workingDirectory := place } [] place
  paths.foldlM (fun fs path => copyAlong fs (fs.start path) (Path.names path)) fs

/-- Writes a file beside its place and renames it. -/
def replace (place : Place) (contents : Octets) : IO Unit := do
  let staged := pathOf (place.dropLast ++ [".tmp" ++ place.getLast?.getD ""])
  IO.FS.writeBinFile staged ⟨contents.toArray⟩
  IO.FS.rename staged (pathOf place)

/-- Writes the files in which a file system differs from an earlier one. -/
def update (before after : FileSystem) : IO Unit :=
  after.entries.forM fun (place, entry) =>
    match entry with
    | .directory => pure ()
    | .file contents =>
      if before.entryAt? place = some entry then pure () else replace place contents

end Disk

namespace Command

/-- The words of the tool itself, in the place of those of libraries. -/
def toolWording : Wording where
  misshapen _ _ := "the structure does not have the right shape"
  answer? arguments :=
    if arguments = ["--version"] ∨ arguments = ["-V"] then some "encimg 0.1.0\n" else none

/-- The number of random octets that are drawn at first; whenever they do not suffice, as many again are
drawn as there are. -/
def firstTapeLength : Nat := 0x10000

/-- Runs the tool on a tape, and on longer and longer ones while the tape is too short. -/
partial def runOnTape (arguments : List String) (filter : Filter) (tape : Octets) (fs : FileSystem) :
    IO (Report × FileSystem) := do
  match run toolWording .perfect arguments filter tape fs with
  | some (report, _, after) => pure (report, after)
  | none =>
    let more ← IO.getRandomBytes (max tape.length firstTapeLength).toUSize
    runOnTape arguments filter (tape ++ more.toList) fs

def environmentFilter : IO Filter := do
  match ← IO.getEnv "RUST_LOG" with
  | none => pure .standard
  | some text => pure (.ofText text)

end Command

end SealedImage

open SealedImage in
/-- Runs the tool on its arguments and gives its exit code. -/
def main (arguments : List String) : IO UInt32 := do
  let before ← Disk.copyOf (((Command.parse? arguments).map Command.paths).getD [])
  let filter ← Command.environmentFilter
  let (report, after) ← Command.runOnTape arguments filter [] before
  Disk.update before after
  report.log.forM fun line => IO.eprintln line
  IO.print report.output
  IO.eprint (report.errorOutput.getD "error: the arguments are no command\n")
  return UInt32.ofNat report.exitCode
