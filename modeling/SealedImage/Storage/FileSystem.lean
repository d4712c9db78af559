import SealedImage.Failure

/-!
# File systems

A file system is a list of places, each with a file or a directory, and a working directory. A place is the
list of names that leads to it from the root, which is always a directory. Paths are text; `locate` follows
all names but the last, and the operations on files and directories say what they need of the last one.
-/

namespace SealedImage

/-- The names from the root to a file or directory. -/
abbrev Place := List String

inductive Entry
  | file (contents : Octets)
  | directory
deriving DecidableEq

/-- Files and directories by their places, and the place that relative paths start from. -/
structure FileSystem where
  entries : List (Place × Entry)
  workingDirectory : Place

/-- The place that a path names, as far as directories lead to it. -/
inductive Located
  /-- The path names an existing directory without its name, as the root or with dots. -/
  | directory (place : Place)
  /-- The last name, in an existing directory; `slash` if a slash follows it. -/
  | named (parent : Place) (name : String) (slash : Bool)
deriving DecidableEq

namespace Path

/-- What stands between the slashes of a path, as far as it is not empty. -/
def names (path : String) : List String :=
  ((path.toList.splitOn '/').filter fun name => !name.isEmpty).map String.ofList

def isAbsolute (path : String) : Bool :=
  path.startsWith "/"

def join (directory name : String) : String :=
  if directory.isEmpty ∨ directory.endsWith "/" then directory ++ name
  else directory ++ "/" ++ name

def nameLimit : Nat := 255

def pathLimit : Nat := 4095

end Path

namespace FileSystem

def empty : FileSystem :=
  ⟨[], []⟩

def entryAt? (fs : FileSystem) (place : Place) : Option Entry :=
  if place = [] then some .directory else fs.entries.lookup place

def put (fs : FileSystem) (place : Place) (entry : Entry) : FileSystem :=
  { fs with entries := (place, entry) :: fs.entries.filter fun e => e.1 != place }

def remove (fs : FileSystem) (place : Place) : FileSystem :=
  { fs with entries := fs.entries.filter fun e => e.1 != place }

def start (fs : FileSystem) (path : String) : Place :=
  if Path.isAbsolute path then [] else fs.workingDirectory

def enter (fs : FileSystem) (place : Place) (name : String) : Except IoFault Place :=
  if name = "." then .ok place
  else if name = ".." then .ok place.dropLast
  else if Path.nameLimit < name.utf8ByteSize then .error .nameTooLong
  else
    match fs.entryAt? (place ++ [name]) with
    | none => .error .notFound
    | some (.file _) => .error .notADirectory
    | some .directory => .ok (place ++ [name])

def walk (fs : FileSystem) (place : Place) (names : List String) : Except IoFault Place :=
  names.foldlM fs.enter place

def locate (fs : FileSystem) (path : String) : Except IoFault Located := do
  if path.contains '\x00' then throw .nulInPath
  if path.isEmpty then throw .notFound
  if Path.pathLimit < path.utf8ByteSize then throw .nameTooLong
  let names := Path.names path
  let parent ← fs.walk (fs.start path) names.dropLast
  match names.getLast? with
  | none => pure (.directory parent)
  | some name =>
    if name = "." then pure (.directory parent)
    else if name = ".." then pure (.directory parent.dropLast)
    else if Path.nameLimit < name.utf8ByteSize then throw .nameTooLong
    else pure (.named parent name (path.endsWith "/"))

def openEntry (fs : FileSystem) (path : String) : Except IoFault Entry := do
  match ← fs.locate path with
  | .directory _ => pure .directory
  | .named parent name slash =>
    match fs.entryAt? (parent ++ [name]) with
    | none => throw .notFound
    | some .directory => pure .directory
    | some (.file contents) => if slash then throw .notADirectory else pure (.file contents)

def contentsOf (fs : FileSystem) (path : String) : Except IoFault Octets := do
  match ← fs.openEntry path with
  | .file contents => pure contents
  | .directory => throw .isADirectory

/-- The file system with new contents of the file that a path names. -/
def withContents (fs : FileSystem) (path : String) (contents : Octets) :
    Except IoFault FileSystem := do
  match ← fs.locate path with
  | .directory _ => throw .isADirectory
  | .named parent name slash =>
    let place := parent ++ [name]
    if slash ∨ fs.entryAt? place = some .directory then throw .isADirectory
    else pure (fs.put place (.file contents))

/-- The file system with the directories that names lead to. -/
def makeDirectories (fs : FileSystem) (place : Place) :
    (names : List String) → Except IoFault FileSystem
  | [] => .ok fs
  | name :: rest =>
    match fs.enter place name with
    | .ok next => fs.makeDirectories next rest
    | .error .notFound =>
      let next := place ++ [name]
      (fs.put next .directory).makeDirectories next rest
    | .error fault => .error (if rest = [] ∧ fault = .notADirectory then .alreadyExists else fault)

/-- The file system with the directory that a path names. -/
def makeDirectory (fs : FileSystem) (path : String) : Except IoFault FileSystem :=
  fs.makeDirectories (fs.start path) (Path.names path)

/-- The order of places in a listing: the names one after the other, by code points. -/
def comesBefore : Place → Place → Bool
  | [], _ => true
  | _ :: _, [] => false
  | a :: as, b :: bs => decide (a < b) || (a == b && comesBefore as bs)

/-- What is below the working directory: the files with their sizes, and the directories, each followed by
what it holds. -/
def listing (fs : FileSystem) : List (String × Option Nat) :=
  let below := fs.entries.filterMap fun (place, entry) =>
    if fs.workingDirectory.isPrefixOf place ∧ place ≠ fs.workingDirectory then
      some (place.drop fs.workingDirectory.length, entry)
    else none
  (below.mergeSort fun a b => comesBefore a.1 b.1).map fun (place, entry) =>
    ("/".intercalate place, match entry with
      | .file contents => some contents.length
      | .directory => none)

end FileSystem

end SealedImage
