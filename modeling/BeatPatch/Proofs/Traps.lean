import BeatPatch.Proofs.Numbers
import BeatPatch.Proofs.Results

/-!
# Traps

Total operations have a value also where a machine would stop: a sum wraps, a byte outside a buffer
reads as zero. A `Trapping` computation stops there instead. It is written down once more with each
access, sum, difference, shift and negation as a machine executes it, on 64-bit offsets, so that
"never traps" says that the checks in front of these operations are enough.

This module has the operations, each with the condition under which it does not trap.
-/

namespace BeatPatch

/-- Why a computation stops without a result. -/
inductive Trap where
  /-- Bytes outside a buffer are addressed, or a run is copied over one of another length. -/
  | access
  /-- A result leaves its word. -/
  | overflow
  /-- A buffer of this size is asked for, which cannot be held. -/
  | allocation (size : Nat)
deriving DecidableEq, Repr

/-- How a computation ends that gives no value: it reports a failure, or it traps. -/
inductive Stop where
  | failure (e : PatchError)
  | trap (t : Trap)
deriving DecidableEq, Repr

/-- A computation that may trap. -/
abbrev Trapping (α : Type) := Except Stop α

namespace Trapping

variable {α β : Type}

/-- Reports a failure. -/
def fail (e : PatchError) : Trapping α := .error (.failure e)

/-- Stops without a result. -/
def trap (t : Trap) : Trapping α := .error (.trap t)

/-- The result of a computation that does not trap. -/
def report : Except PatchError α → Trapping α
  | .ok a => .ok a
  | .error e => fail e

/-- The computation ends with a value or a failure. -/
def Ends (x : Trapping α) : Prop := ∃ result, x = report result

theorem report_ne_trap (x : Except PatchError α) (t : Trap) : report x ≠ trap t := by
  cases x <;> exact nofun

/-- Computations that go on alike from each result of the first end alike. -/
theorem report_bind {x : Except PatchError α} {f : α → Except PatchError β} {g : α → Trapping β}
    (next : ∀ a, x = .ok a → g a = report (f a)) : (report x >>= g) = report (x >>= f) := by
  cases x with
  | ok a => exact next a rfl
  | error e => rfl

/-! ## Words and buffers -/

/-- The value, or a trap if there is none. -/
def orTrap (t : Trap) : Option α → Trapping α
  | some a => .ok a
  | none => trap t

/-- The sum of two words. -/
def add (a b : UInt64) : Trapping UInt64 := orTrap .overflow (Number.add? a b)

/-- The difference of two words. -/
def sub (a b : UInt64) : Trapping UInt64 := if b ≤ a then .ok (a - b) else trap .overflow

/-- The sum of two amounts to shift by. -/
def addShift (a b : UInt32) : Trapping UInt32 :=
  if a.toNat + b.toNat < 2 ^ 32 then .ok (a + b) else trap .overflow

/-- The word moved down. -/
def shiftDown (word : UInt64) (shift : UInt32) : Trapping UInt64 :=
  if shift < 64 then .ok (word >>> shift.toUInt64) else trap .overflow

/-- The sum of two signed words. -/
def addSigned (a b : Int64) : Trapping Int64 :=
  if -offsetBound ≤ a.toInt + b.toInt ∧ a.toInt + b.toInt < offsetBound then .ok (a + b)
  else trap .overflow

/-- The signed word with the other sign. -/
def negate (a : Int64) : Trapping Int64 :=
  if a = Int64.minValue then trap .overflow else .ok (-a)

/-- A byte of a byte string. -/
def byteAt (bytes : Bytes) (position : UInt64) : Trapping UInt8 :=
  orTrap .access bytes[position.toNat]?

/-- The byte that is `distance` bytes past `position`. -/
def byteAfter (bytes : Bytes) (position distance : UInt64) : Trapping UInt8 := do
  let place ← add position distance
  byteAt bytes place

theorem add_of_lt {a b : UInt64} (fits : a.toNat + b.toNat < 2 ^ 64) : add a b = .ok (a + b) := by
  rw [add, Number.add?, if_pos (Number.bound_eq ▸ fits)]
  rfl

theorem toNat_add_of_lt {a b : UInt64} (fits : a.toNat + b.toNat < 2 ^ 64) :
    (a + b).toNat = a.toNat + b.toNat := by
  rw [UInt64.toNat_add]
  exact Nat.mod_eq_of_lt fits

/-- A size that can be held is the same as a word. -/
theorem toNat_word {n : Nat} (held : n < offsetBound) : (UInt64.ofNat n).toNat = n := by
  have whole : n < 2 ^ 63 := held
  apply UInt64.toNat_ofNat_of_lt'
  show n < 2 ^ 64
  omega

theorem sub_of_le {a b : UInt64} (enough : b ≤ a) : sub a b = .ok (a - b) := if_pos enough

theorem addShift_of_lt {a b : UInt32} (fits : a.toNat + b.toNat < 2 ^ 32) :
    addShift a b = .ok (a + b) :=
  if_pos fits

theorem shiftDown_of_lt {word : UInt64} {shift : UInt32} (small : shift < 64) :
    shiftDown word shift = .ok (word >>> shift.toUInt64) :=
  if_pos small

theorem negate_of_nonneg {a : Int64} (nonneg : 0 ≤ a.toInt) : negate a = .ok (-a) := by
  apply if_neg
  rintro rfl
  exact absurd nonneg (by decide)

/-- A sum that a signed word can hold is the exact one. -/
theorem addSigned_of_fits {a b : Int64} (low : -offsetBound ≤ a.toInt + b.toInt)
    (high : a.toInt + b.toInt < offsetBound) :
    addSigned a b = .ok (a + b) ∧ (a + b).toInt = a.toInt + b.toInt := by
  refine ⟨if_pos ⟨low, high⟩, ?_⟩
  rw [offsetBound] at low high
  rw [Int64.toInt_add]
  exact Int.bmod_eq_of_le (by omega) (by omega)

theorem byteAt_of_lt {bytes : Bytes} {position : UInt64} (inside : position.toNat < bytes.length) :
    byteAt bytes position = .ok (bytes.getD position.toNat 0) := by
  rw [byteAt, List.getD_eq_getElem?_getD, List.getElem?_eq_getElem inside]
  rfl

end Trapping

end BeatPatch
