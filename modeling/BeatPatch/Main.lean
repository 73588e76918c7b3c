import BeatPatch.CommandLine.Program

/-!
# The program as an action

Reads the files that a command names, lets the command be planned, and makes the one write
that a plan may ask for. All that is decided is decided by the plan.
-/

namespace BeatPatch.CommandLine

/-- The files that a command reads. -/
def Command.inputs : Command → List Path
  | .apply a => [a.source, a.patch]
  | .info a => [a.patch]
  | .crc a => a.files
  | .completions _ => []

/-- An error of the system by its code. -/
def ioErrorOf (e : IO.Error) : IoError :=
  match e with
  | .noFileOrDirectory .. => .notFound
  | .inappropriateType _ 20 _ => .notDirectory
  | .inappropriateType _ 21 _ => .isDirectory
  | .invalidArgument _ 36 _ => .nameTooLong
  | .permissionDenied _ code _ => .other s!"Permission denied (os error {code})"
  | error => .other error.toString

/-- Makes the outcome of an action a value. -/
def outcome {α : Type} (action : IO α) : IO (Except IoError α) := do
  try return .ok (← action) catch e => return .error (ioErrorOf e)

/-- Reads a file. -/
def readInput (p : Path) : IO (Path × Except IoError Bytes) := do
  return (p, ← outcome do return (← IO.FS.readBinFile p.toString).toList)

/-- Makes the write of a plan, if it has one. -/
def writeOutput (p : Plan) : IO (Except IoError Unit) :=
  match p.write? with
  | none => return .ok ()
  | some output => outcome (IO.FS.writeBinFile output.path.toString ⟨output.bytes.toArray⟩)

/-- Runs an invocation on the files of the system. -/
def Invocation.execute (build : Build) (i : Invocation) (filter : LogFilter) : IO UInt32 := do
  let inputs ← i.command.inputs.mapM readInput
  let plan := i.plan build fun p => (inputs.lookup p).getD (.error .notFound)
  let plan := plan.settle (← writeOutput plan)
  IO.print plan.stdout
  IO.eprint (filter.show plan.log ++ plan.ending.report)
  return UInt32.ofNat plan.ending.exitCode

/-- Runs a command line. -/
def Build.execute (build : Build) (words : List String) : IO UInt32 := do
  match Invocation.parse words with
  | .error refusal =>
    let run := Run.refused refusal (build.answer words refusal)
    IO.print run.stdout
    IO.eprint run.stderr
    return UInt32.ofNat run.exitCode
  | .ok i =>
    let environment := (← IO.getEnv "RUST_LOG").map LogFilter.ofName
    i.execute build (environment.getD i.filter)

end BeatPatch.CommandLine
