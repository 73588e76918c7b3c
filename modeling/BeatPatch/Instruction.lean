import BeatPatch.Number

/-!
# Instructions

Each instruction produces a run of at least one output byte: from the dump at the output
position, from the patch itself, from the dump at a cursor, or from the output already
produced at another cursor. It is written as a number that packs the run length above two
bits for the action, followed by the literal bytes or by the signed move of the cursor.
-/

namespace BeatPatch

/-- The four sources of output bytes. -/
inductive Action where
  /-- The dump, at the output position. -/
  | sourceRead
  /-- Literal bytes of the patch. -/
  | targetRead
  /-- The dump, at a cursor of its own. -/
  | sourceCopy
  /-- The output already produced, at a cursor of its own. -/
  | targetCopy
deriving DecidableEq, Repr

namespace Action

/-- All actions, in the order of their codes. -/
def all : List Action := [.sourceRead, .targetRead, .sourceCopy, .targetCopy]

/-- The two bits that stand for an action. -/
def code : Action → Nat
  | .sourceRead => 0
  | .targetRead => 1
  | .sourceCopy => 2
  | .targetCopy => 3

/-- The action in the two lowest bits of a word. -/
def ofWord (word : Nat) : Action :=
  match word % 4 with
  | 0 => .sourceRead
  | 1 => .targetRead
  | 2 => .sourceCopy
  | _ => .targetCopy

/-- The name of an action in reports. -/
def name : Action → String
  | .sourceRead => "SourceRead"
  | .targetRead => "TargetRead"
  | .sourceCopy => "SourceCopy"
  | .targetCopy => "TargetCopy"

end Action

/-- One step of a patch. -/
inductive Instruction where
  /-- The `length` bytes of the dump at the output position. -/
  | sourceRead (length : Nat)
  /-- These bytes. -/
  | targetRead (data : Bytes)
  /-- The `length` bytes of the dump at the source cursor, once it has moved by `move`. -/
  | sourceCopy (length : Nat) (move : Int)
  /-- The `length` bytes of the output at the target cursor, once it has moved by `move`. -/
  | targetCopy (length : Nat) (move : Int)
deriving DecidableEq, Repr

namespace Instruction

/-- Where the bytes of the run come from. -/
def action : Instruction → Action
  | .sourceRead _ => .sourceRead
  | .targetRead _ => .targetRead
  | .sourceCopy .. => .sourceCopy
  | .targetCopy .. => .targetCopy

/-- The number of output bytes the instruction produces. -/
def length : Instruction → Nat
  | .sourceRead length => length
  | .targetRead data => data.length
  | .sourceCopy length _ => length
  | .targetCopy length _ => length

/-- The move of a copy, if the instruction is one. -/
def move? : Instruction → Option Int
  | .sourceCopy _ move | .targetCopy _ move => some move
  | _ => none

/-- The number that opens an instruction: the run length less one above the action, in 64 bits. -/
def word (i : Instruction) : Nat := (i.length - 1) * 4 % Number.bound + i.action.code

/-- What follows the opening number. -/
def payload : Instruction → Bytes
  | .sourceRead _ => []
  | .targetRead data => data
  | .sourceCopy _ move | .targetCopy _ move => Number.encodeSigned move

/-- The spelling of an instruction with a run of at least one byte. -/
def encode (i : Instruction) : Bytes := Number.encode i.word ++ i.payload

/-- Reads what follows the opening number of an instruction with this action and run length. -/
def readPayload (length : Nat) : Action → Reading Instruction
  | .sourceRead => pure (.sourceRead length)
  | .targetRead => .targetRead <$> readBytes length
  | .sourceCopy => .sourceCopy length <$> Number.readSigned
  | .targetCopy => .targetCopy length <$> Number.readSigned

/-- The run length in the opening number of an instruction. -/
def runLength? (word : UInt64) : Option Nat := (Number.add? (word >>> 2) 1).map UInt64.toNat

/-- Reads an instruction. -/
def read : Reading Instruction := do
  let start := (← get).offset
  let word ← Number.readWord
  match runLength? word with
  | none => throw (.numberOverflow start)
  | some length => readPayload length (Action.ofWord word.toNat)

/-- An instruction as the trace shows it. -/
def describe : Instruction → String
  | .sourceRead length => s!"SourceRead \x7b length: {length} \x7d"
  | .targetRead data =>
    "TargetRead \x7b data: [" ++ ", ".intercalate (data.map fun b => toString b.toNat) ++ "] \x7d"
  | .sourceCopy length move => s!"SourceCopy \x7b length: {length}, offset: {move} \x7d"
  | .targetCopy length move => s!"TargetCopy \x7b length: {length}, offset: {move} \x7d"

/-- An instruction is read as an opening number and what follows it. -/
theorem read_eq_ok_iff {i : Instruction} {r r' : Reader} :
    read r = .ok i r' ↔ ∃ word s length,
      Number.readWord r = .ok word s ∧ runLength? word = some length ∧
        readPayload length (Action.ofWord word.toNat) s = .ok i r' := by
  have got : (get : Reading Reader) r = .ok r r := rfl
  rw [read, Reading.bind_of_ok got, Reading.bind_eq_ok_iff]
  refine exists_congr fun word => exists_congr fun s => ?_
  cases run : runLength? word with
  | none =>
    constructor
    · rintro ⟨-, thrown⟩; cases thrown
    · rintro ⟨length, -, none, -⟩; cases none
  | some length =>
    constructor
    · rintro ⟨opening, payload⟩; exact ⟨length, opening, rfl, payload⟩
    · rintro ⟨_, opening, same, payload⟩; cases same; exact ⟨opening, payload⟩

theorem readPayload_rest_le {length : Nat} {action : Action} {i : Instruction} {r r' : Reader}
    (h : readPayload length action r = .ok i r') : r'.rest.length ≤ r.rest.length := by
  cases action with
  | sourceRead => cases h; exact Nat.le_refl _
  | targetRead =>
    obtain ⟨data, taken, -⟩ := Reading.map_eq_ok_iff.mp h
    by_cases enough : length ≤ r.rest.length
    · rw [readBytes_of_le enough] at taken; cases taken; simp
    · rw [readBytes_of_lt (Nat.lt_of_not_le enough)] at taken; cases taken
  | sourceCopy | targetCopy =>
    obtain ⟨move, moved, -⟩ := Reading.map_eq_ok_iff.mp h
    obtain ⟨word, read, -⟩ := Number.readSigned_eq_ok_iff.mp moved
    exact Nat.le_of_lt (Number.readWord_rest_lt read)

/-- Every instruction takes at least one byte of the patch. -/
theorem read_rest_lt {i : Instruction} {r r' : Reader} (h : read r = .ok i r') :
    r'.rest.length < r.rest.length := by
  obtain ⟨word, s, length, opening, -, payload⟩ := read_eq_ok_iff.mp h
  exact Nat.lt_of_le_of_lt (readPayload_rest_le payload) (Number.readWord_rest_lt opening)

end Instruction

end BeatPatch
