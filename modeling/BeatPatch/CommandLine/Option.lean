/-!
# Options and operands

The names under which a command takes its arguments, what each of them consumes, and which
texts it accepts.
-/

namespace BeatPatch.CommandLine

/-- Why a command line is not run. The last four ask for help or the version, or for help
because nothing else was asked for. -/
inductive Refusal where
  | missingRequiredArgument
  | missingSubcommand
  | unknownArgument
  | invalidSubcommand
  | invalidValue
  | valueValidation
  | argumentConflict
  | tooManyValues
  | help
  | helpOnMissing
  | version
deriving DecidableEq, Repr

/-- The arguments that commands take. -/
inductive Argument where
  | source
  | patch
  | files
  | shell
  | output
  | skip
  | noSmb2
  | noSmc
  | strict
  | verify
  | instructions
  | verbose
  | quiet
  | help
  | version
deriving DecidableEq, Repr

/-- What an option does when it is given. -/
inductive OptionKind where
  /-- It takes a value. -/
  | value
  /-- It is on or off. -/
  | switch
  /-- It counts how often it is given. -/
  | count
  /-- It asks for help or the version, at once. -/
  | request (refusal : Refusal)
deriving DecidableEq, Repr

/-- An option with its names. -/
structure OptionRule where
  argument : Argument
  short : Option Char := none
  long : String
  kind : OptionKind
deriving DecidableEq, Repr

/-- An operand, given by its position. -/
structure OperandRule where
  argument : Argument
  /-- It takes all operands from its position on. -/
  repeated : Bool := false
deriving DecidableEq, Repr

/-- The arguments of a command; all operands are required. -/
structure CommandRule where
  options : List OptionRule
  operands : List OperandRule := []
  /-- The commands that may follow. -/
  commands : List String := []
deriving DecidableEq, Repr

/-- The options that every command takes, and that may also stand before it. -/
def commonOptions : List OptionRule := [
  { argument := .verbose, short := some 'v', long := "verbose", kind := .count },
  { argument := .quiet, short := some 'q', long := "quiet", kind := .switch },
  { argument := .help, short := some 'h', long := "help", kind := .request .help }]

/-- What may stand before the command. -/
def rootRule : CommandRule where
  options := commonOptions ++
    [{ argument := .version, short := some 'V', long := "version", kind := .request .version }]
  commands := ["apply", "info", "crc", "completions", "help"]

/-- The arguments of `apply`. -/
def applyRule : CommandRule where
  options := commonOptions ++ [
    { argument := .output, short := some 'o', long := "output", kind := .value },
    { argument := .noSmb2, long := "no-smb2", kind := .switch },
    { argument := .noSmc, long := "no-smc", kind := .switch },
    { argument := .strict, long := "strict", kind := .switch },
    { argument := .verify, long := "verify", kind := .switch }]
  operands := [{ argument := .source }, { argument := .patch }]

/-- The arguments of `info`. -/
def infoRule : CommandRule where
  options := commonOptions ++ [
    { argument := .instructions, long := "instructions", kind := .switch }]
  operands := [{ argument := .patch }]

/-- The arguments of `crc`. -/
def crcRule : CommandRule where
  options := commonOptions ++ [{ argument := .skip, long := "skip", kind := .value }]
  operands := [{ argument := .files, repeated := true }]

/-- The arguments of `completions`. -/
def completionsRule : CommandRule where
  options := commonOptions
  operands := [{ argument := .shell }]

/-- The shells that completions are written for. -/
inductive Shell where
  | bash
  | elvish
  | fish
  | powershell
  | zsh
deriving DecidableEq, Repr

/-- The shell of this name. -/
def Shell.ofName? : String → Option Shell
  | "bash" => some .bash
  | "elvish" => some .elvish
  | "fish" => some .fish
  | "powershell" => some .powershell
  | "zsh" => some .zsh
  | _ => none

/-- The value of a digit. -/
def digit? (c : Char) : Option Nat := if c.isDigit then some (c.toNat - '0'.toNat) else none

/-- Sizes are below this bound, `2 ^ 64`. -/
def sizeBound : Nat := 0x10000000000000000

/-- The number with these decimal digits, if it is a size. -/
def ofDigits? (digits : List Char) : Option Nat := do
  if digits = [] then failure
  let n ← digits.foldlM (fun n c => do return 10 * n + (← digit? c)) 0
  if n < sizeBound then return n else failure

/-- The size with this text: digits, after a plus sign or not. -/
def readSize? (text : String) : Option Nat :=
  match text.toList with
  | '+' :: digits => ofDigits? digits
  | digits => ofDigits? digits

/-- What is wrong with a value of an argument. Paths are not empty, sizes are numbers, and
shells are known. -/
def Argument.reject? (a : Argument) (value : String) : Option Refusal :=
  match a with
  | .source | .patch | .files | .output => if value = "" then some .invalidValue else none
  | .skip => if (readSize? value).isNone then some .valueValidation else none
  | .shell => if (Shell.ofName? value).isNone then some .invalidValue else none
  | _ => none

end BeatPatch.CommandLine
