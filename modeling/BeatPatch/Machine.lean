import BeatPatch.Instruction

/-!
# The patching machine

The machine fills a target of fixed size from the front. Reads from the dump happen at the
output position; each of the two copies has a cursor of its own that moves relative to
where the previous copy ended. Every access is checked before a byte is written, first the
side that is read and then the side that is written. The positions are 64-bit words, the
cursors signed ones: a move is checked against their range, while the sums behind a run wrap.
-/

namespace BeatPatch

/-- The target, the number of bytes produced so far, and the two copy cursors. -/
structure Machine where
  target : Array UInt8
  output : UInt64
  sourceCursor : Int64
  targetCursor : Int64
deriving DecidableEq, Repr

namespace Machine

/-- The machine before the first instruction: a target of zeros. -/
def blank (targetSize : Nat) : Machine := ⟨Array.replicate targetSize 0, 0, 0, 0⟩

/-- Checks that `length` bytes from `start` lie in a buffer of `size` bytes. -/
def checkRange (buffer : Buffer) (size start length : Nat) : Except PatchError Unit :=
  if start + length ≤ size then .ok () else .error (.outside buffer start length)

/-- The position is one that a signed 64-bit word can hold. -/
def isOffset (position : Int) : Bool := -offsetBound ≤ position && position < offsetBound

/-- Where a cursor is after a move, for a run of `length` bytes from there. -/
def moveCursor (buffer : Buffer) (cursor : Int64) (move : Int) (length : Nat) :
    Except PatchError Nat :=
  let moved := cursor.toInt + move
  if !isOffset moved then .error (.outside buffer offsetBound length)
  else if moved < 0 then .error (.outOfBounds buffer moved length)
  else .ok moved.toNat

/-- The bytes of the dump in a range. -/
def slice (source : Array UInt8) (start length : Nat) : Bytes :=
  (source.extract start (start + length)).toList

/-- Writes bytes over the target from a position on. -/
def place (target : Array UInt8) (position : Nat) : Bytes → Array UInt8
  | [] => target
  | byte :: rest => place (target.setIfInBounds position byte) (position + 1) rest

/-- Copies bytes of the target one at a time, so that a copy that reaches its own output
repeats it. -/
def copyWithin (target : Array UInt8) (start position : Nat) : Nat → Array UInt8
  | 0 => target
  | n + 1 =>
    copyWithin (target.setIfInBounds position (target.getD start 0)) (start + 1) (position + 1) n

/-- The cursor behind a run. -/
def cursorAfter (start length : Nat) : Int64 := Int64.ofNat start + Int64.ofNat length

/-- The output position behind a run. -/
def outputAfter (output : UInt64) (length : Nat) : UInt64 := output + UInt64.ofNat length

/-- Executes one instruction. -/
def execute (source : Array UInt8) : Machine → Instruction → Except PatchError Machine
  | ⟨target, output, sourceCursor, targetCursor⟩, .sourceRead length => do
    checkRange .source source.size output.toNat length
    checkRange .target target.size output.toNat length
    return ⟨place target output.toNat (slice source output.toNat length),
      outputAfter output length, sourceCursor, targetCursor⟩
  | ⟨target, output, sourceCursor, targetCursor⟩, .targetRead data => do
    checkRange .target target.size output.toNat data.length
    return ⟨place target output.toNat data, outputAfter output data.length,
      sourceCursor, targetCursor⟩
  | ⟨target, output, sourceCursor, targetCursor⟩, .sourceCopy length move => do
    let start ← moveCursor .source sourceCursor move length
    checkRange .source source.size start length
    checkRange .target target.size output.toNat length
    return ⟨place target output.toNat (slice source start length), outputAfter output length,
      cursorAfter start length, targetCursor⟩
  | ⟨target, output, sourceCursor, targetCursor⟩, .targetCopy length move => do
    let start ← moveCursor .target targetCursor move length
    checkRange .target target.size start length
    checkRange .target target.size output.toNat length
    return ⟨copyWithin target start output.toNat length, outputAfter output length,
      sourceCursor, cursorAfter start length⟩

theorem checkRange_eq_ok_iff {buffer : Buffer} {size start length : Nat} {u : Unit} :
    checkRange buffer size start length = .ok u ↔ start + length ≤ size := by
  by_cases inside : start + length ≤ size
  · rw [checkRange, if_pos inside]
    exact iff_of_true rfl inside
  · rw [checkRange, if_neg inside]
    refine iff_of_false ?_ inside
    rintro ⟨⟩

theorem length_slice (source : Array UInt8) (start length : Nat) :
    (slice source start length).length = min length (source.size - start) := by
  rw [slice, Array.length_toList, Array.size_extract]
  omega

@[simp] theorem size_place (target : Array UInt8) (position : Nat) (data : Bytes) :
    (place target position data).size = target.size := by
  induction data generalizing target position with
  | nil => rfl
  | cons byte rest ih => simp [place, ih]

@[simp] theorem size_copyWithin (target : Array UInt8) (start position n : Nat) :
    (copyWithin target start position n).size = target.size := by
  induction n generalizing target start position with
  | zero => rfl
  | succ n ih => simp [copyWithin, ih]

end Machine

end BeatPatch
