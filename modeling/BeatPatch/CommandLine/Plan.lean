import BeatPatch.Folder
import BeatPatch.Log

/-!
# Plans

A command reads files and decides: what it prints and logs, and then that it fails, or is
done, or has one file to write and something to say afterwards. It writes nothing itself.
`Plan.carryOut` makes the write in a folder; whatever fails leaves the folder as it was.
-/

namespace BeatPatch.CommandLine

/-- How the files of a folder are read. -/
abbrev Files := Path → Except IoError Bytes

/-- Why a command fails. -/
inductive Failure where
  /-- A file cannot be read; `role` says what it was to be. -/
  | unreadable (role : String) (path : Path) (cause : IoError)
  /-- The output would replace the dump. -/
  | overwritesSource (source : Path)
  /-- The patch cannot be applied. -/
  | notApplied (patch source : Path) (cause : PatchError)
  /-- The file cannot be parsed as a patch. -/
  | notParsed (path : Path) (cause : PatchError)
  /-- The applied patch cannot be parsed again. -/
  | notVerified (cause : PatchError)
  /-- The patch does not have the checksum that it stores. -/
  | damagedPatch (cause : PatchError)
  /-- The output does not have the checksum that the patch stores. -/
  | otherTarget (cause : PatchError)
  /-- The instructions cannot be read. -/
  | notDecoded (cause : PatchError)
  /-- The output cannot be written. -/
  | unwritable (path : Path) (cause : IoError)
deriving DecidableEq, Repr

/-- The messages of a failure, the outermost first. -/
def Failure.messages : Failure → List String
  | .unreadable role path cause => [s!"Failed to read {role}: {path}", cause.message]
  | .overwritesSource source =>
    [s!"Refusing to overwrite the source ROM {source}; pass --output"]
  | .notApplied patch source cause => [s!"Failed to apply {patch} to {source}", cause.message]
  | .notParsed path cause => [s!"Failed to parse patch: {path}", cause.message]
  | .notVerified cause => [cause.message]
  | .damagedPatch cause => ["Patch file is damaged", cause.message]
  | .otherTarget cause =>
    ["Patched ROM does not match the patch's target checksum", cause.message]
  | .notDecoded cause => ["Failed to decode instruction stream", cause.message]
  | .unwritable path cause => [s!"Failed to write output: {path}", cause.message]

/-- The failure as it is reported at the end. -/
def Failure.report (f : Failure) : String :=
  match f.messages with
  | [] => ""
  | outermost :: causes =>
    s!"Error: {outermost}\n" ++
      (if causes = [] then "" else "\nCaused by:\n" ++ String.join (causes.map (s!"    {·}\n")))

/-- What is reported of every failure: what could not be done, with the paths concerned, and then
the cause where there is one behind it. -/
theorem Failure.report_eq (f : Failure) : f.report =
    match f with
    | .unreadable role path cause =>
      s!"Error: Failed to read {role}: {path}\n\nCaused by:\n    {cause.message}\n"
    | .overwritesSource source =>
      s!"Error: Refusing to overwrite the source ROM {source}; pass --output\n"
    | .notApplied patch source cause =>
      s!"Error: Failed to apply {patch} to {source}\n\nCaused by:\n    {cause.message}\n"
    | .notParsed path cause =>
      s!"Error: Failed to parse patch: {path}\n\nCaused by:\n    {cause.message}\n"
    | .notVerified cause => s!"Error: {cause.message}\n"
    | .damagedPatch cause =>
      s!"Error: Patch file is damaged\n\nCaused by:\n    {cause.message}\n"
    | .otherTarget cause =>
      "Error: Patched ROM does not match the patch's target checksum\n\n" ++
        s!"Caused by:\n    {cause.message}\n"
    | .notDecoded cause =>
      s!"Error: Failed to decode instruction stream\n\nCaused by:\n    {cause.message}\n"
    | .unwritable path cause =>
      s!"Error: Failed to write output: {path}\n\nCaused by:\n    {cause.message}\n" := by
  -- Texts that are cut at other places are compared by their characters.
  refine String.toList_injective ?_
  cases f <;> simp [report, messages, toString]

/-- Why a command breaks off, without a failure to report. -/
inductive Limit where
  /-- The declared target is too large for the memory. -/
  | memory
  /-- The lengths of instructions add up to more than 64 bits can hold. -/
  | total
deriving DecidableEq, Repr

/-- How a command ends. -/
inductive Ending where
  | done
  | failed (failure : Failure)
  /-- A limit of the machine is exceeded, which nothing recovers from. -/
  | exhausted (limit : Limit)
deriving DecidableEq, Repr

/-- A file to be written, and what is printed once it is. -/
structure Output where
  path : Path
  bytes : Bytes
  announcement : String
deriving DecidableEq, Repr

/-- What a command comes to before anything is written. -/
structure Plan where
  stdout : String := ""
  log : List LogRecord := []
  ending : Ending := .done
  /-- Only looked at if the command has not failed. -/
  output : Option Output := none
deriving DecidableEq, Repr

namespace Plan

/-- A plan that fails at once. -/
def fail (failure : Failure) : Plan := { ending := .failed failure }

/-- A plan that breaks off at once. -/
def exhaust (limit : Limit) : Plan := { ending := .exhausted limit }

/-- Prints and logs first. -/
def after (stdout : String) (log : List LogRecord) (p : Plan) : Plan :=
  { p with stdout := stdout ++ p.stdout, log := log ++ p.log }

/-- Goes on with the contents of a file. -/
def withFile (files : Files) (role : String) (path : Path) (next : Bytes → Plan) : Plan :=
  match files path with
  | .ok bytes => next bytes
  | .error cause => fail (.unreadable role path cause)

/-- Carries out a plan with the outcome of its write, if it has one to make. -/
def settle (p : Plan) (written : Except IoError Unit) : Plan :=
  match p.ending, p.output with
  | .done, some output =>
    match written with
    | .ok () => { p with stdout := p.stdout ++ output.announcement, output := none }
    | .error cause => { p with ending := .failed (.unwritable output.path cause), output := none }
  | _, _ => { p with output := none }

/-- The write that a plan has to make. -/
def write? (p : Plan) : Option Output := if p.ending = .done then p.output else none

/-- Carries out a plan in a folder. -/
def carryOut (p : Plan) (folder : Folder) : Plan × Folder :=
  match p.write? with
  | none => (p.settle (.ok ()), folder)
  | some output =>
    match folder.write output.path output.bytes with
    | .ok folder => (p.settle (.ok ()), folder)
    | .error cause => (p.settle (.error cause), folder)

end Plan

end BeatPatch.CommandLine
