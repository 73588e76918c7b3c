import BeatPatch.Stream

/-!
# The tape machine

What the instructions mean, without buffers and machine words: the output is a list that only
grows at its end, and the copy cursors are integers. Cells may be of any type, so that a run can
also be followed for where its cells come from; `cell` says what a byte of the patch is among
them, and the zero byte is what a cell is before anything is written.
-/

namespace BeatPatch

/-- The output so far and the two copy cursors. -/
structure Tape (α : Type) where
  output : List α
  sourceCursor : Int
  targetCursor : Int

namespace Tape

variable {α : Type}

/-- The tape before the first instruction. -/
def fresh : Tape α := ⟨[], 0, 0⟩

/-- Names a run that leaves a buffer. A start that no signed 64-bit word can hold is named as the
largest that it can. -/
def outside (buffer : Buffer) (start : Int) (length : Nat) : PatchError :=
  .outOfBounds buffer (min start (offsetBound - 1)) length

/-- Fails unless the run lies in a buffer of `size` cells. -/
def require (buffer : Buffer) (size : Nat) (start : Int) (length : Nat) : Except PatchError Unit :=
  if 0 ≤ start ∧ start + length ≤ size then .ok () else .error (outside buffer start length)

/-- Appends cells of the output itself one at a time, each as it is by then; a cell that is not
written yet is blank. -/
def copyOwn (blank : α) (output : List α) (start : Nat) : Nat → List α
  | 0 => output
  | n + 1 => copyOwn blank (output ++ [output.getD start blank]) (start + 1) n

/-- Executes one instruction on the way to `targetSize` cells. -/
def step (cell : UInt8 → α) (source : List α) (targetSize : Nat) :
    Tape α → Instruction → Except PatchError (Tape α)
  | ⟨output, sourceCursor, targetCursor⟩, .sourceRead length => do
    require .source source.length output.length length
    require .target targetSize output.length length
    return ⟨output ++ (source.drop output.length).take length, sourceCursor, targetCursor⟩
  | ⟨output, sourceCursor, targetCursor⟩, .targetRead data => do
    require .target targetSize output.length data.length
    return ⟨output ++ data.map cell, sourceCursor, targetCursor⟩
  | ⟨output, sourceCursor, targetCursor⟩, .sourceCopy length move => do
    let start := sourceCursor + move
    require .source source.length start length
    require .target targetSize output.length length
    return ⟨output ++ (source.drop start.toNat).take length, start + length, targetCursor⟩
  | ⟨output, sourceCursor, targetCursor⟩, .targetCopy length move => do
    let start := targetCursor + move
    require .target targetSize start length
    require .target targetSize output.length length
    return ⟨copyOwn (cell 0) output start.toNat length, sourceCursor, start + length⟩

/-- Fills the output up to its declared size. -/
def finish (cell : UInt8 → α) (targetSize : Nat) (t : Tape α) : List α :=
  t.output ++ List.replicate (targetSize - t.output.length) (cell 0)

/-- The output is no longer than declared, and the cursors stand in their buffers or at their
ends. -/
structure Inside (sourceSize targetSize : Nat) (t : Tape α) : Prop where
  output : t.output.length ≤ targetSize
  source : 0 ≤ t.sourceCursor ∧ t.sourceCursor ≤ sourceSize
  target : 0 ≤ t.targetCursor ∧ t.targetCursor ≤ targetSize

/-- Executes the instructions of a walk as they are read. -/
def run (cell : UInt8 → α) (source : List α) (targetSize : Nat) (w : Stream.Walk) (t : Tape α) :
    Except PatchError (List α) :=
  match _h : w.next? with
  | none => .ok (t.finish cell targetSize)
  | some (.error e, _) => .error e
  | some (.ok i, w') => step cell source targetSize t i >>= run cell source targetSize w'
termination_by w.reader.rest.length
decreasing_by exact Stream.Walk.next?_rest_lt _h

/-- What follows a check is reached if the run lies in the buffer. -/
theorem require_bind_eq_ok_iff {β : Type} {buffer : Buffer} {size length : Nat} {start : Int}
    {f : Unit → Except PatchError β} {b : β} :
    require buffer size start length >>= f = .ok b ↔
      (0 ≤ start ∧ start + length ≤ size) ∧ f () = .ok b := by
  by_cases inside : 0 ≤ start ∧ start + length ≤ size
  · rw [require, if_pos inside]
    exact (and_iff_right inside).symm
  · rw [require, if_neg inside]
    constructor
    · intro failed
      cases failed
    · intro h
      exact absurd h.1 inside

@[simp] theorem length_copyOwn (blank : α) (output : List α) (start n : Nat) :
    (copyOwn blank output start n).length = output.length + n := by
  induction n generalizing output start with
  | zero => rfl
  | succ n ih =>
    rw [copyOwn, ih, List.length_append, List.length_singleton]
    omega

section Run

variable {cell : UInt8 → α} {source : List α} {targetSize : Nat} {w w' : Stream.Walk} {t : Tape α}

theorem run_of_none (next : w.next? = none) :
    run cell source targetSize w t = .ok (t.finish cell targetSize) := by
  rw [run]
  split <;> rename_i taken <;> rw [next] at taken <;> cases taken

theorem run_of_error {e : PatchError} (next : w.next? = some (.error e, w')) :
    run cell source targetSize w t = .error e := by
  rw [run]
  split <;> rename_i taken <;> rw [next] at taken <;> cases taken
  rfl

theorem run_of_ok {i : Instruction} (next : w.next? = some (.ok i, w')) :
    run cell source targetSize w t =
      step cell source targetSize t i >>= run cell source targetSize w' := by
  rw [run]
  split <;> rename_i taken <;> rw [next] at taken <;> cases taken
  rfl

/-- An instruction that is executed stays inside the target. -/
theorem length_step {i : Instruction} {t' : Tape α} (inside : t.output.length ≤ targetSize)
    (stepped : step cell source targetSize t i = .ok t') : t'.output.length ≤ targetSize := by
  obtain ⟨output, sourceCursor, targetCursor⟩ := t
  simp only at inside
  cases i with
  | sourceRead length =>
    simp only [step, require_bind_eq_ok_iff] at stepped
    obtain ⟨-, ⟨-, room⟩, ends⟩ := stepped
    cases ends
    simp only [List.length_append, List.length_take]
    omega
  | targetRead data =>
    simp only [step, require_bind_eq_ok_iff] at stepped
    obtain ⟨⟨-, room⟩, ends⟩ := stepped
    cases ends
    simp only [List.length_append, List.length_map]
    omega
  | sourceCopy length move =>
    simp only [step, require_bind_eq_ok_iff] at stepped
    obtain ⟨-, ⟨-, room⟩, ends⟩ := stepped
    cases ends
    simp only [List.length_append, List.length_take]
    omega
  | targetCopy length move =>
    simp only [step, require_bind_eq_ok_iff] at stepped
    obtain ⟨-, ⟨-, room⟩, ends⟩ := stepped
    cases ends
    simp only [length_copyOwn]
    omega

/-- A run that ends gives as many cells as were declared. -/
theorem length_run {out : List α} (inside : t.output.length ≤ targetSize)
    (ran : run cell source targetSize w t = .ok out) : out.length = targetSize := by
  induction w using Stream.Walk.induction generalizing t with
  | ended w next =>
    rw [run_of_none next] at ran
    cases ran
    rw [finish, List.length_append, List.length_replicate]
    omega
  | fault w e w' next =>
    rw [run_of_error next] at ran
    cases ran
  | item w i w' next ih =>
    rw [run_of_ok next] at ran
    cases stepped : step cell source targetSize t i with
    | error e => rw [stepped] at ran; cases ran
    | ok t' => rw [stepped] at ran; exact ih (length_step inside stepped) ran

end Run

end Tape

end BeatPatch
