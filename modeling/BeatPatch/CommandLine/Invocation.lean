import BeatPatch.CommandLine.Matching
import BeatPatch.Log
import BeatPatch.Path

/-!
# Invocations

What a command line asks for once it has been accepted.
-/

namespace BeatPatch.CommandLine

/-- The arguments of `apply`. -/
structure ApplyArguments where
  source : Path
  patch : Path
  output : Option Path := none
  noSmb2 : Bool := false
  noSmc : Bool := false
  strict : Bool := false
  verify : Bool := false
deriving DecidableEq, Repr

/-- The repairs that the arguments allow. -/
def ApplyArguments.options (a : ApplyArguments) : RecoveryOptions :=
  if a.strict then RecoveryOptions.strict
  else { knownDumps := !a.noSmb2, copierHeader := !a.noSmc }

/-- The arguments of `info`. -/
structure InfoArguments where
  patch : Path
  instructions : Bool := false
deriving DecidableEq, Repr

/-- The arguments of `crc`. -/
structure CrcArguments where
  files : List Path
  skip : Nat := 0
deriving DecidableEq, Repr

/-- The commands. -/
inductive Command where
  | apply (arguments : ApplyArguments)
  | info (arguments : InfoArguments)
  | crc (arguments : CrcArguments)
  | completions (shell : Shell)
deriving DecidableEq, Repr

/-- A command and how much it is to say. -/
structure Invocation where
  command : Command
  verbosity : Nat := 0
  quiet : Bool := false
deriving DecidableEq, Repr

namespace Matching

/-- The value of an argument that must be given. -/
def require (m : Matching) (a : Argument) : Except Refusal String :=
  match m.value? a with
  | some value => .ok value
  | none => .error .missingRequiredArgument

/-- The arguments of `apply`; being strict leaves no repair to be switched off. -/
def toApply (m : Matching) : Except Refusal Command := do
  if m.has .strict && (m.has .noSmb2 || m.has .noSmc) then throw .argumentConflict
  let source ← m.require .source
  let patch ← m.require .patch
  return .apply {
    source := Path.ofString source
    patch := Path.ofString patch
    output := (m.value? .output).map Path.ofString
    noSmb2 := m.has .noSmb2
    noSmc := m.has .noSmc
    strict := m.has .strict
    verify := m.has .verify }

/-- The arguments of `info`. -/
def toInfo (m : Matching) : Except Refusal Command := do
  let patch ← m.require .patch
  return .info { patch := Path.ofString patch, instructions := m.has .instructions }

/-- The arguments of `crc`. -/
def toCrc (m : Matching) : Except Refusal Command := do
  let _ ← m.require .files
  return .crc {
    files := ((m.values? .files).getD []).map Path.ofString
    skip := ((m.value? .skip).bind readSize?).getD 0 }

/-- The argument of `completions`. -/
def toCompletions (m : Matching) : Except Refusal Command := do
  let shell ← m.require .shell
  match Shell.ofName? shell with
  | some shell => return .completions shell
  | none => throw .invalidValue

end Matching

/-- The answer to a request for help on these words. -/
def helpOn : List String → Refusal
  | [] => .help
  | [word] => if rootRule.commands.contains word then .help else .invalidSubcommand
  | _ => .invalidSubcommand

/-- The command of this name with the words behind it. -/
def Command.parse (name : String) (words : List String) : Except Refusal (Matching × Command) :=
  match name with
  | "apply" => finish applyRule Matching.toApply
  | "info" => finish infoRule Matching.toInfo
  | "crc" => finish crcRule Matching.toCrc
  | "completions" => finish completionsRule Matching.toCompletions
  | _ => .error (helpOn words)
where
  /-- Matches the words and reads the arguments off. -/
  finish (rule : CommandRule) (command : Matching → Except Refusal Command) :
      Except Refusal (Matching × Command) := do
    let m ← Matching.takeAll rule words
    return (m, ← command m)

/-- What the words of a command line ask for. Of a count before the command and one behind it
the latter stands. -/
def Invocation.parse (words : List String) : Except Refusal Invocation := do
  let (root, rest) ← Matching.takeToCommand { rule := rootRule } words
  match rest with
  | none =>
    if root.given = [] && root.verbosity = 0 then throw .helpOnMissing
    else throw .missingSubcommand
  | some (name, words) =>
    let (m, command) ← Command.parse name words
    return {
      command
      verbosity := if m.verbosity = 0 then root.verbosity else m.verbosity
      quiet := m.has .quiet || root.has .quiet }

/-- The least severe level that is shown; `none` shows nothing. -/
abbrev LogFilter := Option LogLevel

/-- The filter that verbosity asks for; being quiet wins. -/
def Invocation.filter (i : Invocation) : LogFilter :=
  if i.quiet then some .error
  else
    match i.verbosity with
    | 0 => some .warn
    | 1 => some .info
    | 2 => some .debug
    | _ => some .trace

/-- The filter of this name; a name that is no level shows nothing. -/
def LogFilter.ofName (name : String) : LogFilter :=
  [LogLevel.error, .warn, .info, .debug, .trace].find? fun level =>
    level.name = name.map Char.toUpper

/-- The lines of the records that pass a filter. -/
def LogFilter.show (filter : LogFilter) (log : List LogRecord) : String :=
  match filter with
  | none => ""
  | some least =>
    String.join ((log.filter fun r => r.level.rank ≤ least.rank).map LogRecord.line)

end BeatPatch.CommandLine
