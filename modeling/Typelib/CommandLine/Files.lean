import Typelib.Binary.Word

/-!
# Files

What a command needs of the files around it, and a folder of files as a value.

* `FileAccess`: reading and writing files by path;
* `Folder`: files by name;
* `Folder.locate`: where a path leads;
* `Folder.access`: the files of a folder that is the working directory.
-/

namespace Typelib

/-- Why a file could not be read or written. -/
inductive FileError
  /-- The system refused. -/
  | system (code : Nat) (reason : String)
  /-- The bytes are not text. -/
  | notText
  deriving DecidableEq, Repr

namespace FileError

def message : FileError → String
  | system code reason => s!"{reason} (os error {code})"
  | notText => "stream did not contain valid UTF-8"

def noSuchFile : FileError := system 2 "No such file or directory"
def notDirectory : FileError := system 20 "Not a directory"
def isDirectory : FileError := system 21 "Is a directory"
def noSpace : FileError := system 28 "No space left on device"
def nameTooLong : FileError := system 36 "File name too long"

end FileError

/-- Files by path. -/
structure FileAccess (m : Type → Type) where
  read : (path : String) → m (Except FileError Bytes)
  /-- Replaces a file, or makes it. -/
  write : (path : String) → Bytes → m (Except FileError Unit)

/-! ### Folders -/

/-- Files by name, without folders in it. -/
structure Folder where
  files : List (String × Bytes) := []
  deriving DecidableEq

namespace Folder

/-- Replaces a file, or adds it at the end. -/
def insert (name : String) (bytes : Bytes) : List (String × Bytes) → List (String × Bytes)
  | [] => [(name, bytes)]
  | file :: files =>
    if file.1 = name then (name, bytes) :: files else file :: insert name bytes files

/-! ### Paths -/

/-- A folder on the way of a path. -/
inductive Spot
  /-- The folder itself, where paths begin. -/
  | here
  /-- A folder around it, or one somewhere else. -/
  | away
  | root
  | devices
  deriving DecidableEq, Repr

namespace Spot

def parent : Spot → Spot
  | here | away => away
  | root | devices => root

/-- The folders that every system has at its root, next to its devices. -/
def rootFolders : List String :=
  ["bin", "etc", "home", "lib", "opt", "proc", "root", "run", "sbin", "srv", "sys", "tmp", "usr", "var"]

/-- The folder with a name, if it is known to be there. -/
def folder? (spot : Spot) (name : String) : Option Spot :=
  if spot = root then
    if name = "dev" then some devices else if rootFolders.contains name then some away else none
  else none

end Spot

/-- Where a path leads: to a folder, or to a name that a file may have. -/
inductive Place
  | folder (spot : Spot)
  | file (spot : Spot) (name : String)
  deriving DecidableEq, Repr

/-- The contents of a file. Away from here only the two devices that hold nothing are known: one
takes in everything, and the other is always full. -/
def contents? (f : Folder) : Spot → String → Option Bytes
  | .here, name => f.files.lookup name
  | .devices, name => if name = "null" ∨ name = "full" then some #[] else none
  | _, _ => none

/-- The number of bytes that the name of a file can have. -/
def maxNameSize : Nat := 255

/-- The number of bytes that a path can have. -/
def maxPathSize : Nat := 4095

/-- Goes one part of a path further. -/
def step (f : Folder) (place : Place) (part : String) : Except FileError Place :=
  match place with
  | .file spot name =>
    .error (if (f.contents? spot name).isSome then .notDirectory else .noSuchFile)
  | .folder spot =>
    if part = "" ∨ part = "." then .ok place
    else if part = ".." then .ok (.folder spot.parent)
    else if maxNameSize < part.utf8ByteSize then .error .nameTooLong
    else
      match spot.folder? part with
      | some inner => .ok (.folder inner)
      | none => .ok (.file spot part)

/-- Goes along the parts of a path, from the root if the path begins with a slash. -/
def locate (f : Folder) (path : String) (parts : List String) : Except FileError Place :=
  if path = "" then .error .noSuchFile
  else if maxPathSize < path.utf8ByteSize then .error .nameTooLong
  else parts.foldlM f.step (.folder (if path.startsWith "/" then .root else .here))

/-! ### Reading and writing -/

def read (f : Folder) (path : String) : Except FileError Bytes := do
  match ← f.locate path (path.splitOn "/") with
  | .folder _ => .error .isDirectory
  | .file spot name =>
    match f.contents? spot name with
    | some bytes => .ok bytes
    | none => .error .noSuchFile

/-- The parts of a path to write to. A slash at the end asks for a folder, so that the name before it
does not matter. -/
def targetParts (path : String) : List String :=
  if path.endsWith "/" then
    ((path.splitOn "/").reverse.dropWhile fun part => part == "").reverse.dropLast ++ ["."]
  else path.splitOn "/"

/-- Writes a file. What is written away from here leaves no trace in this folder. -/
def write (f : Folder) (path : String) (bytes : Bytes) : Except FileError Folder := do
  match ← f.locate path (targetParts path) with
  | .folder _ => .error .isDirectory
  | .file .here name => .ok ⟨insert name bytes f.files⟩
  | .file .devices "full" => .error .noSpace
  | .file _ _ => .ok f

/-- The files of a folder that is the working directory. -/
def access : FileAccess (StateM Folder) where
  read path := do return (← get).read path
  write path bytes := do
    match (← get).write path bytes with
    | .error e => return .error e
    | .ok f =>
      set f
      return .ok ()

end Folder

end Typelib
