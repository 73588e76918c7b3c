import BeatPatch.Family
import BeatPatch.Instruction
import BeatPatch.Recovery
import BeatPatch.Text.Plain

/-!
# The log

What happens on the way to a result is told in records, each of a fixed level and from a
fixed place. A `Logged` result carries the records made on the way, also those before a
failure.
-/

namespace BeatPatch

/-- The severity of a record, the most severe first. -/
inductive LogLevel where
  | error
  | warn
  | info
  | debug
  | trace
deriving DecidableEq, Repr

namespace LogLevel

/-- How many levels are more severe. -/
def rank : LogLevel → Nat
  | .error => 0
  | .warn => 1
  | .info => 2
  | .debug => 3
  | .trace => 4

/-- The name of a level. -/
def name : LogLevel → String
  | .error => "ERROR"
  | .warn => "WARN"
  | .info => "INFO"
  | .debug => "DEBUG"
  | .trace => "TRACE"

end LogLevel

/-- A record of the log. -/
inductive LogRecord where
  /-- The apply command starts. -/
  | applyCommand (patch : String) (options : RecoveryOptions)
  /-- The crc command has hashed a file. -/
  | hashed (path : String) (size : Nat)
  /-- A patch was parsed. -/
  | parsed (sourceSize targetSize metadataSize : Nat) (sourceChecksum : UInt32)
  /-- A patch fits the dump and is about to be executed. -/
  | applying (sourceSize targetSize metadataSize : Nat)
  /-- An instruction is about to be executed. -/
  | executing (instruction : Instruction) (output : Nat)
  /-- The instructions left the end of the target unwritten. -/
  | endedEarly (output targetSize : Nat)
  /-- The patch does not fit the dump as it is. -/
  | directFailure (error : PatchError)
  /-- The dump is this one but for its header. -/
  | otherHeader (version : String)
  /-- The dump is of another revision, and there is no patch to convert it. -/
  | noConversion (family : String) (current required : Revision)
  /-- The dump is about to be converted to another revision. -/
  | converting (family : String) (current required : Revision)
  /-- An attempt after a repair succeeded. -/
  | recovered (recovery : Recovery)
  /-- A repair did not make the patch fit. -/
  | unrecovered (recovery : Recovery) (error : PatchError)
deriving DecidableEq, Repr

namespace LogRecord

/-- The level of a record. -/
def level : LogRecord → LogLevel
  | .executing .. => .trace
  | .recovered .. => .info
  | .noConversion .. => .warn
  | _ => .debug

/-- The part of the program that a record comes from. -/
def origin : LogRecord → String
  | .applyCommand .. => "rom_patcher::commands::apply"
  | .hashed .. => "rom_patcher::commands::crc"
  | .parsed .. => "rom_bps::patch::header"
  | .applying .. | .executing .. | .endedEarly .. => "rom_bps::patch::apply"
  | _ => "rom_bps::adaptive"

/-- The text of a record. -/
def text : LogRecord → String
  | .applyCommand patch options => s!"Applying {patch} with {options.describe}"
  | .hashed path size => s!"{path}: {size} bytes hashed"
  | .parsed sourceSize targetSize metadataSize sourceChecksum =>
    s!"BPS header: source={sourceSize}, target={targetSize}, metadata={metadataSize}, " ++
      s!"source_crc={Text.checksum sourceChecksum}"
  | .applying sourceSize targetSize metadataSize =>
    s!"Applying BPS patch: {sourceSize} -> {targetSize} bytes, {metadataSize} bytes of metadata"
  | .executing instruction output => s!"{instruction.describe} at output {output}"
  | .endedEarly output targetSize =>
    s!"Instruction stream ended after {output} of {targetSize} bytes"
  | .directFailure error => s!"Direct application failed: {error.message}"
  | .otherHeader version => s!"Source is {version} with a different header"
  | .noConversion family current required =>
    s!"Source is {family} {current.name} but the patch needs {required.name}; " ++
      "no conversion patch is available"
  | .converting family current required =>
    s!"Converting {family} from {current.name} to {required.name}"
  | .recovered recovery => s!"Patch applied after {recovery.name}"
  | .unrecovered recovery error => s!"{recovery.name} did not help: {error.message}"

/-- A record as it is written to the log, as plain text; the level is padded to five
characters and a text of several lines hangs from the first. -/
def line (r : LogRecord) : String :=
  let level := r.level.name
  let padding := if level.length < 5 then " " else ""
  Text.plain s!"[{level}{padding} {r.origin}] {Text.hanging r.text}\n"

end LogRecord

/-- A result and the records made on the way to it. -/
structure Logged (α : Type) where
  result : Except PatchError α
  log : List LogRecord

namespace Logged

variable {α β : Type}

/-- A result without records. -/
def of (result : Except PatchError α) : Logged α := ⟨result, []⟩

/-- Makes one record. -/
def note (record : LogRecord) : Logged Unit := ⟨.ok (), [record]⟩

/-- Fails for this cause. -/
def fail (error : PatchError) : Logged α := of (.error error)

/-- Goes on after a success, with the log of what follows behind that of what came before. -/
def andThen (x : Logged α) (f : α → Logged β) : Logged β :=
  match x.result with
  | .ok a => ⟨(f a).result, x.log ++ (f a).log⟩
  | .error e => ⟨.error e, x.log⟩

instance : Monad Logged where
  pure a := of (.ok a)
  bind := andThen

@[simp] theorem of_result (result : Except PatchError α) : (of result).result = result := rfl

@[simp] theorem of_log (result : Except PatchError α) : (of result).log = [] := rfl

theorem bind_of_ok {x : Logged α} {a : α} (h : x.result = .ok a) (f : α → Logged β) :
    x >>= f = ⟨(f a).result, x.log ++ (f a).log⟩ := by
  simp only [bind, andThen, h]

theorem bind_of_error {x : Logged α} {e : PatchError} (h : x.result = .error e)
    (f : α → Logged β) : x >>= f = ⟨.error e, x.log⟩ := by
  simp only [bind, andThen, h]

theorem of_ok_bind (a : α) (f : α → Logged β) : of (.ok a) >>= f = f a := rfl

@[simp] theorem pure_result (a : α) : (pure a : Logged α).result = .ok a := rfl

@[simp] theorem note_result (record : LogRecord) : (note record).result = .ok () := rfl

@[simp] theorem fail_result (error : PatchError) : (fail error : Logged α).result = .error error :=
  rfl

/-- The log has no part in a result. -/
@[simp] theorem bind_result (x : Logged α) (f : α → Logged β) :
    (x >>= f).result = x.result >>= fun a => (f a).result := by
  cases h : x.result with
  | ok a => rw [bind_of_ok h]; rfl
  | error e => rw [bind_of_error h]; rfl

end Logged

end BeatPatch
