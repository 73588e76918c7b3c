import BeatPatch.CommandLine.Invocation
import BeatPatch.CommandLine.Plan

/-!
# The crc command

One line per file, in order, up to the first that cannot be read. The checksum is that of
the file without the bytes to be skipped; the name of a known dump follows if the whole file
is one, or if the hashed part is the program of one.
-/

namespace BeatPatch.CommandLine

/-- The known dump that a file is, by the whole file or else by its program. -/
def recognize (family : Family) (file : Bytes) (checksum : UInt32) : Option Version :=
  (family.identify file).or (family.lookupProgram checksum)

/-- The line for a file. -/
def crcLine (family : Family) (skip : Nat) (path : Path) (file : Bytes) : String :=
  let checksum := crc32 (file.drop skip)
  match recognize family file checksum with
  | some version => s!"{Text.checksum checksum}  {path}  {version.name}\n"
  | none => s!"{Text.checksum checksum}  {path}\n"

/-- The plan for files, one after the other. -/
def crcPlanFor (family : Family) (files : Files) (skip : Nat) : List Path → Plan
  | [] => {}
  | path :: rest =>
    Plan.withFile files "file" path fun file =>
      Plan.after (crcLine family skip path file)
        [.hashed path.toString (file.length - skip)]
        (crcPlanFor family files skip rest)

/-- The plan of `crc`, with these known dumps. -/
def crcPlan (family : Family) (files : Files) (a : CrcArguments) : Plan :=
  crcPlanFor family files a.skip a.files

end BeatPatch.CommandLine
