import BeatPatch.CommandLine.Option

/-!
# Matching a command line

The words of a command line are taken one after the other. A word with two hyphens names an
option, with its value behind an equals sign or in the next word; a word with one hyphen
holds short options; after a lone `--` every word is an operand. Values are held back until
the next argument begins and are only then looked at, so an unknown option is reported
before a bad value in front of it.
-/

namespace BeatPatch.CommandLine

/-- The arguments matched so far. -/
structure Matching where
  rule : CommandRule
  /-- The arguments given, with their values. -/
  given : List (Argument × List String) := []
  /-- How often the counting option was given. -/
  verbosity : Nat := 0
  /-- The argument whose values are held back; an option without a value still waits for it. -/
  pending : Option (Argument × List String) := none
  /-- The number of operands that are complete. -/
  operands : Nat := 0
  /-- Every word from here on is an operand. -/
  literal : Bool := false
deriving DecidableEq, Repr

namespace Matching

/-- The values of an argument, if it was given. -/
def values? (m : Matching) (a : Argument) : Option (List String) := m.given.lookup a

/-- The argument was given. -/
def has (m : Matching) (a : Argument) : Bool := (m.values? a).isSome

/-- The last value of an argument. -/
def value? (m : Matching) (a : Argument) : Option String := (m.values? a).bind (·.getLast?)

/-- Takes the values of an argument, which may only be given again if it is repeated. -/
def accept (m : Matching) (a : Argument) (values : List String) : Except Refusal Matching :=
  if values = [] then .error .invalidValue
  else if a ≠ .files && m.has a then .error .argumentConflict
  else
    match values.findSome? a.reject? with
    | some refusal => .error refusal
    | none => .ok { m with given := (a, (m.values? a).getD [] ++ values) :: m.given }

/-- Takes the values that were held back. -/
def settle (m : Matching) : Except Refusal Matching :=
  match m.pending with
  | none => .ok m
  | some (a, values) => accept { m with pending := none } a values

/-- Acts on an option that takes no value. -/
def turnOn (m : Matching) (o : OptionRule) : Except Refusal Matching := do
  let m ← m.settle
  match o.kind with
  | .request refusal => throw refusal
  | .count => return { m with verbosity := m.verbosity + 1 }
  | .switch | .value =>
    if m.has o.argument then throw .argumentConflict
    else return { m with given := (o.argument, []) :: m.given }

/-- Takes the value of an option, or waits for it. -/
def takeValue (m : Matching) (o : OptionRule) (value : Option String) :
    Except Refusal Matching := do
  let m ← m.settle
  match value with
  | some value => m.accept o.argument [value]
  | none => return { m with pending := some (o.argument, []) }

/-- Takes an option by its long name, with the value behind the equals sign if there is one. -/
def takeLong (m : Matching) (name : String) (value : Option String) : Except Refusal Matching :=
  match m.rule.options.find? (·.long = name) with
  | none => .error .unknownArgument
  | some o =>
    if o.kind = .value then m.takeValue o value
    else if value.isSome then .error .tooManyValues
    else m.turnOn o

/-- Takes short options one after the other; the first that takes a value takes the rest of
the word as its value. -/
def takeShort (m : Matching) : List Char → Except Refusal Matching
  | [] => .ok m
  | c :: rest =>
    match m.rule.options.find? (·.short = some c) with
    | none => .error .unknownArgument
    | some o =>
      if o.kind = .value then
        m.takeValue o <|
          match rest with
          | [] => none
          | '=' :: value => some (String.ofList value)
          | value => some (String.ofList value)
      else do takeShort (← m.turnOn o) rest

/-- Takes the next operand. -/
def takeOperand (m : Matching) (word : String) : Except Refusal Matching :=
  match m.rule.operands[m.operands]? with
  | none =>
    if m.rule.commands = [] || m.literal && m.rule.commands.contains word then
      .error .unknownArgument
    else .error .invalidSubcommand
  | some o =>
    match o.repeated, m.pending with
    | true, some (a, values) =>
      if a = o.argument then .ok { m with pending := some (a, values ++ [word]) }
      else do return { (← m.settle) with pending := some (o.argument, [word]) }
    | true, none => .ok { m with pending := some (o.argument, [word]) }
    | false, _ => do
      let m ← m.settle
      return { m with pending := some (o.argument, [word]), operands := m.operands + 1 }

/-- Takes a word. -/
def take (m : Matching) (word : String) : Except Refusal Matching :=
  if m.literal then m.takeOperand word
  else
    match word.toList with
    | ['-', '-'] => .ok { m with literal := true }
    | '-' :: '-' :: option =>
      let name := String.ofList (option.takeWhile (· ≠ '='))
      m.takeLong name <|
        match option.dropWhile (· ≠ '=') with
        | [] => none
        | _ :: value => some (String.ofList value)
    | '-' :: c :: options => m.takeShort (c :: options)
    | _ =>
      match m.pending with
      | some (a, []) => .ok { m with pending := some (a, [word]) }
      | _ => m.takeOperand word

/-- Takes all words of a command. -/
def takeAll (rule : CommandRule) (words : List String) : Except Refusal Matching := do
  let m ← words.foldlM take { rule }
  m.settle

/-- Takes words up to the first that is a command, and gives it with the words behind it. -/
def takeToCommand (m : Matching) :
    List String → Except Refusal (Matching × Option (String × List String))
  | [] => do return (← m.settle, none)
  | word :: rest =>
    if !m.literal && m.rule.commands.contains word then .ok (m, some (word, rest))
    else do takeToCommand (← m.take word) rest

end Matching

end BeatPatch.CommandLine
