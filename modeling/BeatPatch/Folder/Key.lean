import BeatPatch.Path

/-!
# Keys of files

A key says where a file or a directory lies: the names that lead down to it from the root. Keys
have no `.` and no `..`, so that a file has one key however it is spelt. Where a path that does not
start at the root starts is said with it.
-/

namespace BeatPatch

/-- Where a file or a directory lies. -/
structure FileKey where
  names : List PathPart
deriving DecidableEq, Repr

namespace FileKey

/-- The root. -/
def root : FileKey := ⟨[]⟩

/-- The entry of this name in a directory. -/
def entry (directory : FileKey) (name : PathPart) : FileKey := ⟨directory.names ++ [name]⟩

/-- The parent of a directory; the root is its own. -/
def parent (directory : FileKey) : FileKey := ⟨directory.names.dropLast⟩

/-- The key is that of the directory or of something below it. -/
def isWithin (key directory : FileKey) : Bool := directory.names.isPrefixOf key.names

/-- The key lies below a directory. -/
def isBelow (key directory : FileKey) : Bool := key.isWithin directory && key ≠ directory

/-- The directory that one part of a path leads to. -/
def follow (directory : FileKey) (part : PathPart) : FileKey :=
  if part.isIdle then directory
  else if part = PathPart.parent then directory.parent
  else directory.entry part

/-- Where the way that a path describes starts, seen from a location. -/
def startOf (location : FileKey) (p : Path) : FileKey := if p.isAbsolute then root else location

/-- The key that a path leads to from a location if all on the way are directories. -/
def ofPath (location : FileKey) (p : Path) : FileKey :=
  p.parts.foldl follow (startOf location p)

/-- The directories that a system has at its root. -/
def standard : List FileKey :=
  ["bin", "boot", "dev", "etc", "home", "lib", "media", "mnt", "opt", "proc", "root", "run",
    "sbin", "srv", "sys", "tmp", "usr", "var"].map fun name => root.entry name.toList

/-- The device that is always empty and keeps nothing. -/
def nullDevice : FileKey := (root.entry "dev".toList).entry "null".toList

end FileKey

end BeatPatch
