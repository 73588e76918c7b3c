import BeatPatch.CommandLine.Crc
import BeatPatch.CommandLine.Info
import BeatPatch.Family.SuperMarioBros2

/-!
# The program

A command line is refused, or its command is planned and carried out in a folder. Either way
there is an exit code, a text for each of the two output streams, and the folder afterwards.
-/

namespace BeatPatch.CommandLine

/-- The name of the program. -/
def programName : String := "rom-patcher"

/-- The answer to a request for the version. -/
def versionText : String := s!"{programName} 0.3.0\n"

/-- What a build of the program brings along: conversion patches, and the texts that the parser of
command lines makes up. -/
structure Build where
  embedded : EmbeddedPatches := {}
  /-- What is said of words that are refused, the help included. -/
  explain : List String → Refusal → String
  /-- The script that completes command lines in a shell. -/
  completionScript : Shell → String

/-- The known dumps that a build looks for. -/
def Build.family (build : Build) : Family := Family.superMarioBros2 build.embedded

/-- What is said of words that are refused. -/
def Build.answer (build : Build) (words : List String) : Refusal → String
  | .version => versionText
  | refusal => build.explain words refusal

/-- The plan of an invocation. -/
def Invocation.plan (build : Build) (i : Invocation) (files : Files) : Plan :=
  match i.command with
  | .apply a => applyPlan build.family files i.quiet a
  | .info a => infoPlan build.family files a
  | .crc a => crcPlan build.family files a
  | .completions shell => { stdout := build.completionScript shell }

/-- The exit code for a refused command line; help and version are no failures when they were
asked for. -/
def Refusal.exitCode : Refusal → Nat
  | .help | .version => 0
  | _ => 2

/-- The exit code of a command. -/
def Ending.exitCode : Ending → Nat
  | .done => 0
  | .failed _ => 1
  | .exhausted _ => 101

/-- What is said of a limit that is exceeded, but for the place in the program where it was. -/
def Limit.message : Limit → String
  | .memory => "capacity overflow"
  | .total => "attempt to add with overflow"

/-- What remains to be said of how a command ended. -/
def Ending.report : Ending → String
  | .done => ""
  | .failed failure => failure.report
  | .exhausted limit => s!"{limit.message}\n"

/-- What is left of a run of the program. -/
inductive Run where
  | refused (refusal : Refusal) (answer : String)
  | finished (filter : LogFilter) (plan : Plan) (folder : Folder)
deriving DecidableEq, Repr

namespace Run

/-- The exit code. -/
def exitCode : Run → Nat
  | .refused refusal _ => refusal.exitCode
  | .finished _ plan _ => plan.ending.exitCode

/-- The text on the standard output; what was asked for belongs there. -/
def stdout : Run → String
  | .refused refusal answer => if refusal.exitCode = 0 then answer else ""
  | .finished _ plan _ => plan.stdout

/-- The text on the standard error: the log and then the failure. -/
def stderr : Run → String
  | .refused refusal answer => if refusal.exitCode = 0 then "" else answer
  | .finished filter plan _ => filter.show plan.log ++ plan.ending.report

end Run

/-- Runs the program in a folder. The filter from the environment, if there is one, wins over
the one that the words ask for. -/
def run (build : Build) (environment : Option LogFilter) (words : List String)
    (folder : Folder) : Run :=
  match Invocation.parse words with
  | .error refusal => .refused refusal (build.answer words refusal)
  | .ok i =>
    let (plan, folder) := (i.plan build folder.read).carryOut folder
    .finished (environment.getD i.filter) plan folder

end BeatPatch.CommandLine
