import BeatPatch.Instruction

/-!
# Instruction streams

The instructions of a patch follow each other until the reading position is at or past a
limit, the start of the footer. A `Walk` takes them one at a time and ends for good at the
first that does not decode. A literal may reach into the footer, so a walk can stop beyond
its limit. `Walk.collect` walks to the end.
-/

namespace BeatPatch

namespace Stream

/-- A walk over instructions: the reader at the next one, the offset at which the stream
ends, and whether an instruction has failed to decode. -/
structure Walk where
  reader : Reader
  limit : Nat
  failed : Bool := false
deriving DecidableEq, Repr

/-- An instruction and the offset of its first byte in the patch. -/
structure Item where
  start : Nat
  instruction : Instruction
deriving DecidableEq, Repr

/-- The offset of an instruction that does not decode, and what is wrong with it. -/
structure Fault where
  start : Nat
  error : PatchError
deriving DecidableEq, Repr

end Stream

/-- The instructions of a patch up to the end or the first fault, and the walk at its end. -/
structure Stream where
  items : List Stream.Item
  fault : Option Stream.Fault
  rest : Stream.Walk
deriving DecidableEq, Repr

namespace Stream

/-- The instructions, without their offsets. -/
def instructions (s : Stream) : List Instruction := s.items.map Item.instruction

/-- Puts items in front of a stream. -/
def after (items : List Item) (s : Stream) : Stream := { s with items := items ++ s.items }

namespace Walk

/-- The offset of the next instruction. -/
def position (w : Walk) : Nat := w.reader.offset

/-- The next instruction, or what is wrong with it, and the walk after it; `none` at the end
and after a fault. -/
def next? (w : Walk) : Option (Except PatchError Instruction × Walk) :=
  if w.failed || w.limit ≤ w.position then none
  else
    match Instruction.read w.reader with
    | .ok i r => some (.ok i, { w with reader := r })
    | .error e r => some (.error e, { w with reader := r, failed := true })

theorem next?_eq_none_iff {w : Walk} : w.next? = none ↔ w.failed = true ∨ w.limit ≤ w.position := by
  unfold next?
  split
  · rename_i ended
    simpa using ended
  · rename_i running
    split <;> simpa using running

/-- Before the end, the next instruction is read. -/
theorem next?_of_lt {w : Walk} (sound : w.failed = false) (before : w.position < w.limit) :
    w.next? = match Instruction.read w.reader with
      | .ok i r => some (.ok i, { w with reader := r })
      | .error e r => some (.error e, { w with reader := r, failed := true }) := by
  have running : ¬ (w.failed || w.limit ≤ w.position) = true := by
    simp [sound, before]
  rw [next?, if_neg running]

theorem running_of_next? {w : Walk} {step : Except PatchError Instruction × Walk}
    (next : w.next? = some step) : w.failed = false ∧ w.position < w.limit := by
  have running : ¬ (w.failed = true ∨ w.limit ≤ w.position) := by
    rw [← next?_eq_none_iff, next]
    exact nofun
  obtain ⟨sound, before⟩ := not_or.mp running
  exact ⟨Bool.not_eq_true _ ▸ sound, Nat.lt_of_not_le before⟩

theorem next?_eq_ok_iff {w w' : Walk} {i : Instruction} :
    w.next? = some (.ok i, w') ↔ w.failed = false ∧ w.position < w.limit ∧
      ∃ r, Instruction.read w.reader = .ok i r ∧ w' = { w with reader := r } := by
  constructor
  · intro h
    obtain ⟨sound, before⟩ := running_of_next? h
    rw [next?_of_lt sound before] at h
    refine ⟨sound, before, ?_⟩
    cases read : Instruction.read w.reader with
    | ok j r => rw [read] at h; cases h; exact ⟨r, rfl, rfl⟩
    | error e r => rw [read] at h; cases h
  · rintro ⟨sound, before, r, read, rfl⟩
    rw [next?_of_lt sound before, read]

theorem next?_eq_error_iff {w w' : Walk} {e : PatchError} :
    w.next? = some (.error e, w') ↔ w.failed = false ∧ w.position < w.limit ∧
      ∃ r, Instruction.read w.reader = .error e r ∧
        w' = { w with reader := r, failed := true } := by
  constructor
  · intro h
    obtain ⟨sound, before⟩ := running_of_next? h
    rw [next?_of_lt sound before] at h
    refine ⟨sound, before, ?_⟩
    cases read : Instruction.read w.reader with
    | ok i r => rw [read] at h; cases h
    | error cause r => rw [read] at h; cases h; exact ⟨r, rfl, rfl⟩
  · rintro ⟨sound, before, r, read, rfl⟩
    rw [next?_of_lt sound before, read]

theorem exists_read_of_next?_error {w w' : Walk} {e : PatchError}
    (h : w.next? = some (.error e, w')) : ∃ r, Instruction.read w.reader = .error e r := by
  obtain ⟨-, -, r, read, -⟩ := next?_eq_error_iff.mp h
  exact ⟨r, read⟩

theorem next?_rest_lt {w w' : Walk} {i : Instruction} (h : w.next? = some (.ok i, w')) :
    w'.reader.rest.length < w.reader.rest.length := by
  obtain ⟨-, -, r, read, rfl⟩ := next?_eq_ok_iff.mp h
  exact Instruction.read_rest_lt read

/-- To prove something of every walk, prove it of those that are at their end or at a fault,
and of those that take an instruction if it holds of the walk behind it. -/
@[elab_as_elim]
theorem induction {motive : Walk → Prop} (ended : ∀ w, w.next? = none → motive w)
    (fault : ∀ w e w', w.next? = some (.error e, w') → motive w)
    (item : ∀ w i w', w.next? = some (.ok i, w') → motive w' → motive w) (w : Walk) :
    motive w := by
  generalize size : w.reader.rest.length = n
  induction n using Nat.strongRecOn generalizing w with
  | ind n ih =>
    match next : w.next? with
    | none => exact ended w next
    | some (.error e, w') => exact fault w e w' next
    | some (.ok i, w') => exact item w i w' next (ih _ (size ▸ next?_rest_lt next) w' rfl)

/-- Walks to the end, after `items`. -/
def collectOnto (items : Array Item) (w : Walk) : Stream :=
  match _h : w.next? with
  | none => ⟨items.toList, none, w⟩
  | some (.ok i, w') => collectOnto (items.push ⟨w.position, i⟩) w'
  | some (.error e, w') => ⟨items.toList, some ⟨w.position, e⟩, w'⟩
termination_by w.reader.rest.length
decreasing_by exact next?_rest_lt _h

/-- Walks to the end. -/
def collect (w : Walk) : Stream := collectOnto #[] w

theorem collectOnto_of_none {items : Array Item} {w : Walk} (next : w.next? = none) :
    collectOnto items w = ⟨items.toList, none, w⟩ := by
  rw [collectOnto]
  split <;> rename_i taken <;> rw [next] at taken <;> cases taken

theorem collectOnto_of_error {items : Array Item} {w w' : Walk} {e : PatchError}
    (next : w.next? = some (.error e, w')) :
    collectOnto items w = ⟨items.toList, some ⟨w.position, e⟩, w'⟩ := by
  rw [collectOnto]
  split <;> rename_i taken <;> rw [next] at taken <;> cases taken
  rfl

theorem collectOnto_of_ok {items : Array Item} {w w' : Walk} {i : Instruction}
    (next : w.next? = some (.ok i, w')) :
    collectOnto items w = collectOnto (items.push ⟨w.position, i⟩) w' := by
  rw [collectOnto]
  split <;> rename_i taken <;> rw [next] at taken <;> cases taken
  rfl

theorem collectOnto_eq (items : Array Item) (w : Walk) :
    collectOnto items w = after items.toList (collect w) := by
  induction w using induction generalizing items with
  | ended w next => simp [collect, collectOnto_of_none next, after]
  | fault w e w' next => simp [collect, collectOnto_of_error next, after]
  | item w i w' next ih =>
    rw [collect, collectOnto_of_ok next, collectOnto_of_ok next, ih, ih (#[].push _)]
    simp [after]

theorem collect_of_none {w : Walk} (next : w.next? = none) : collect w = ⟨[], none, w⟩ :=
  collectOnto_of_none next

theorem collect_of_error {w w' : Walk} {e : PatchError} (next : w.next? = some (.error e, w')) :
    collect w = ⟨[], some ⟨w.position, e⟩, w'⟩ :=
  collectOnto_of_error next

theorem collect_of_ok {w w' : Walk} {i : Instruction} (next : w.next? = some (.ok i, w')) :
    collect w = after [⟨w.position, i⟩] (collect w') :=
  (collectOnto_of_ok next).trans (collectOnto_eq _ w')

end Walk

end Stream

end BeatPatch
