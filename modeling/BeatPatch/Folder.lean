import BeatPatch.Bytes
import BeatPatch.Folder.Key
import BeatPatch.IoError

/-!
# Folders

A folder has its place in the tree of directories, from which relative paths start. Files are
known by where they lie, in the folder or anywhere else; there are no links, so that a file lies in
one place. The folder itself, all directories above it, the standard directories and the null
device exist; any other directory exists as long as some file lies in it. Reading and writing fail
in the ways of a file system, and a write that does not fail replaces the whole file.
-/

namespace BeatPatch

/-- A folder with the files in it and around it. -/
structure Folder where
  /-- Where the folder lies. -/
  location : FileKey
  files : List (FileKey × Bytes)
deriving DecidableEq, Repr

namespace Folder

/-- The greatest size of a name in bytes. -/
def nameLimit : Nat := 255

/-- The greatest size of a path in bytes. -/
def pathLimit : Nat := 4095

/-- What stands under a name in a directory. -/
inductive Place where
  | directory (key : FileKey)
  | file (key : FileKey) (bytes : Bytes)
  /-- The null device. -/
  | nullDevice
  /-- Nothing. -/
  | vacant (key : FileKey)
deriving DecidableEq, Repr

/-- The contents of a file. -/
def get? (f : Folder) (key : FileKey) : Option Bytes := f.files.lookup key

/-- There is a directory here. -/
def hasDirectory (f : Folder) (key : FileKey) : Bool :=
  f.location.isWithin key || FileKey.standard.contains key ||
    f.files.any fun file => file.1.isBelow key

/-- Looks a name up in a directory. -/
def find (f : Folder) (directory : FileKey) (name : PathPart) : Except IoError Place :=
  let key := directory.entry name
  if nameLimit < name.size then .error .nameTooLong
  else if f.hasDirectory key then .ok (.directory key)
  else if key = FileKey.nullDevice then .ok .nullDevice
  else
    match f.get? key with
    | some bytes => .ok (.file key bytes)
    | none => .ok (.vacant key)

/-- Follows a part of a path that has to lead to a directory. -/
def enter (f : Folder) (directory : FileKey) (part : PathPart) : Except IoError FileKey :=
  if part.isIdle then .ok directory
  else if part = PathPart.parent then .ok directory.parent
  else
    match f.find directory part with
    | .ok (.directory key) => .ok key
    | .ok (.vacant _) => .error .notFound
    | .ok _ => .error .notDirectory
    | .error e => .error e

/-- Follows a path up to its last part: the directory reached, and the name to be looked up
there unless the directory itself is meant. -/
def approach (f : Folder) (p : Path) : Except IoError (FileKey × Option PathPart) := do
  if p.chars.contains '\x00' then throw .nullInPath
  if pathLimit < p.size then throw .nameTooLong
  match p.trimmed.getLast? with
  | none => if p.isAbsolute then return (.root, none) else throw .notFound
  | some last =>
    let directory ← p.trimmed.dropLast.foldlM f.enter (FileKey.startOf f.location p)
    if last.isIdle || last = PathPart.parent then return (directory.follow last, none)
    return (directory, some last)

/-- The contents of the file at a path. -/
def read (f : Folder) (p : Path) : Except IoError Bytes := do
  let (directory, some name) ← f.approach p | throw .isDirectory
  let bytes ← match ← f.find directory name with
    | .directory _ => throw .isDirectory
    | .vacant _ => throw .notFound
    | .nullDevice => pure []
    | .file _ bytes => pure bytes
  if p.endsInSlash then throw .notDirectory
  return bytes

/-- The folder with these contents for a file. -/
def put (f : Folder) (key : FileKey) (bytes : Bytes) : Folder :=
  if (f.get? key).isSome then
    { f with files := f.files.map fun entry => if entry.1 = key then (key, bytes) else entry }
  else { f with files := f.files ++ [(key, bytes)] }

/-- Writes a file, replacing what was there. No file can be made under a path that ends in a
slash. -/
def write (f : Folder) (p : Path) (bytes : Bytes) : Except IoError Folder := do
  let (directory, some name) ← f.approach p | throw .isDirectory
  if p.endsInSlash then throw .isDirectory
  match ← f.find directory name with
  | .directory _ => throw .isDirectory
  | .nullDevice => return f
  | .file key _ | .vacant key => return f.put key bytes

/-- The files in the folder that are not, or not with these contents, in `before`. -/
def changesFrom (f before : Folder) : List (FileKey × Bytes) :=
  f.files.filter fun (key, bytes) => key.isBelow f.location && before.get? key ≠ some bytes

/-- A folder with these files, all given by path. -/
def ofFiles (place : Path) (files : List (Path × Bytes)) : Folder :=
  let location := FileKey.ofPath .root place
  ⟨location, files.map fun (p, bytes) => (FileKey.ofPath location p, bytes)⟩

end Folder

end BeatPatch
