import BeatPatch.Crc32

/-!
# Families of known dumps

Dumps of one game may differ only in the header in front of the program, or may hold
another revision of the program. A `Family` lists the dumps of a game, keyed by the
checksum of the whole dump, which is what a patch names; and the patches that turn one
revision into another. Every search takes the first entry that fits.
-/

namespace BeatPatch

/-- The revision of a program. -/
inductive Revision where
  | rev0
  | revA
deriving DecidableEq, Repr

/-- The name of a revision. -/
def Revision.name : Revision → String
  | .rev0 => "Rev 0"
  | .revA => "Rev A"

/-- The size of the header in front of a program. -/
def headerSize : Nat := 16

/-- The checksum of a dump without its header; a dump no longer than a header counts as empty. -/
def programChecksum (dump : Bytes) : UInt32 := crc32 (dump.drop headerSize)

/-- A known dump. -/
structure Version where
  /-- The usual file name. -/
  name : String
  revision : Revision
  /-- The checksum of all after the header. -/
  programChecksum : UInt32
  header : Vector UInt8 headerSize
deriving DecidableEq, Repr

/-- The dump with its header replaced by that of the version; a shorter dump keeps its size. -/
def Version.reheader (v : Version) (dump : Bytes) : Bytes :=
  v.header.toList.take dump.length ++ dump.drop headerSize

/-- A patch from one revision to another, if it is available. -/
structure Conversion where
  source : Revision
  target : Revision
  patch : Option Bytes
deriving DecidableEq, Repr

/-- All known dumps of a game. -/
structure Family where
  name : String
  /-- The dumps by the checksum of the whole dump, those to be preferred first. -/
  versions : List (UInt32 × Version)
  conversions : List Conversion
deriving DecidableEq, Repr

namespace Family

/-- The version with this checksum of the whole dump. -/
def lookup (f : Family) (checksum : UInt32) : Option Version := f.versions.lookup checksum

/-- The version that a dump is, by its checksum. -/
def identify (f : Family) (dump : Bytes) : Option Version := f.lookup (crc32 dump)

/-- The first version with this checksum of the program. -/
def lookupProgram (f : Family) (checksum : UInt32) : Option Version :=
  (f.versions.map Prod.snd).find? (·.programChecksum = checksum)

/-- The first version of a revision; conversion patches expect its header. -/
def canonical (f : Family) (revision : Revision) : Option Version :=
  (f.versions.map Prod.snd).find? (·.revision = revision)

/-- The patch from one revision to another. -/
def conversion (f : Family) (source target : Revision) : Option Bytes :=
  (f.conversions.find? fun c => c.source = source && c.target = target).bind (·.patch)

/-- The revisions other than `target` that no patch turns into it, each once. -/
def missingConversions (f : Family) (target : Revision) : List Revision :=
  f.versions.foldl (fun missing entry =>
    let source := entry.2.revision
    if source ≠ target ∧ f.conversion source target = none ∧ source ∉ missing then
      missing ++ [source]
    else missing) []

end Family

end BeatPatch
