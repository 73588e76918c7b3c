import BeatPatch.Application

/-!
# Damaged patches

Reading a patch and executing its instructions can fail in only one way: the patch is damaged. It
breaks the format, or it addresses bytes that are not there. This holds of each reading, of a
stream as a whole and of a run of the machine (`Machine.settles_run`), so that none of them ever
says that the dump is the wrong one. A run that does not fail keeps the size of the target.
-/

namespace BeatPatch

/-- The patch breaks the format or addresses bytes that are not there. -/
def PatchError.isDamage : PatchError → Bool
  | .malformed | .outOfBounds .. | .numberOverflow .. => true
  | _ => false

theorem PatchError.isWrongInput_of_isDamage {e : PatchError} (damage : e.isDamage = true) :
    e.isWrongInput = false := by
  cases e <;> first | rfl | cases damage

/-- The computation gives a result with the property, or it fails on a damaged patch. -/
def Settles {α : Type} (P : α → Prop) : Except PatchError α → Prop
  | .ok a => P a
  | .error e => e.isDamage = true

/-- The reading fails only on a damaged patch. -/
def Reading.OnlyDamage {α : Type} (x : Reading α) : Prop :=
  ∀ r e r', x r = .error e r' → e.isDamage = true

/-! ## Readings -/

namespace Reading.OnlyDamage

variable {α β : Type} {x : Reading α}

theorem pure (a : α) : OnlyDamage (Pure.pure a : Reading α) := nofun

theorem bind {f : α → Reading β} (first : OnlyDamage x) (next : ∀ a, OnlyDamage (f a)) :
    OnlyDamage (x >>= f) := by
  intro r e r' failed
  cases read : x r with
  | ok a s =>
    rw [bind_of_ok read] at failed
    exact next a s e r' failed
  | error cause s =>
    rw [bind_of_error read] at failed
    cases failed
    exact first r e r' read

theorem map (reading : OnlyDamage x) (f : α → β) : OnlyDamage (f <$> x) := by
  intro r e r' failed
  cases read : x r with
  | ok a s => rw [map_of_ok read] at failed; cases failed
  | error cause s =>
    rw [map_of_error read] at failed
    cases failed
    exact reading r e r' read

end Reading.OnlyDamage

theorem onlyDamage_readSignature : Reading.OnlyDamage readSignature := by
  intro r e r' failed
  unfold readSignature at failed
  split at failed
  · cases failed
  · cases failed; rfl

theorem onlyDamage_readBytes (n : Nat) : Reading.OnlyDamage (readBytes n) := by
  intro r e r' failed
  rcases Nat.lt_or_ge r.rest.length n with short | enough
  · rw [readBytes_of_lt short] at failed
    cases failed; rfl
  · rw [readBytes_of_le enough] at failed
    cases failed

namespace Number

theorem isDamage_of_scan {start shift offset : Nat} {sum : UInt64} {bytes : Bytes} {e : PatchError}
    {r : Reader} (failed : scan start shift sum offset bytes = .error e r) :
    e.isDamage = true := by
  induction bytes generalizing shift sum offset with
  | nil => cases failed; rfl
  | cons byte rest ih =>
    unfold scan at failed
    split at failed
    · cases failed; rfl
    · split at failed
      · cases failed
      · exact ih failed

theorem onlyDamage_readWord : Reading.OnlyDamage readWord := fun _ _ _ => isDamage_of_scan

theorem onlyDamage_read : Reading.OnlyDamage read := onlyDamage_readWord.map _

theorem onlyDamage_readSigned : Reading.OnlyDamage readSigned := by
  rw [readSigned_eq]
  exact onlyDamage_readWord.map _

end Number

namespace Instruction

theorem onlyDamage_readPayload (length : Nat) (action : Action) :
    Reading.OnlyDamage (readPayload length action) := by
  cases action with
  | sourceRead => exact .pure _
  | targetRead => exact (onlyDamage_readBytes length).map _
  | sourceCopy => exact Number.onlyDamage_readSigned.map _
  | targetCopy => exact Number.onlyDamage_readSigned.map _

theorem onlyDamage_read : Reading.OnlyDamage read := by
  have position : Reading.OnlyDamage (get : Reading Reader) := nofun
  refine position.bind fun start => Number.onlyDamage_readWord.bind fun word => ?_
  cases runLength? word with
  | none => intro r e r' failed; cases failed; rfl
  | some length => exact onlyDamage_readPayload length _

end Instruction

namespace Stream.Walk

theorem isDamage_of_next? {w w' : Walk} {e : PatchError} (next : w.next? = some (.error e, w')) :
    e.isDamage = true := by
  obtain ⟨r, read⟩ := exists_read_of_next?_error next
  exact Instruction.onlyDamage_read _ _ _ read

/-- The fault that ends a stream is damage. -/
theorem isDamage_of_collect {w : Walk} {fault : Fault} (found : w.collect.fault = some fault) :
    fault.error.isDamage = true := by
  induction w using Stream.Walk.induction with
  | ended w next =>
    rw [collect_of_none next] at found
    cases found
  | fault w e w' next =>
    rw [collect_of_error next] at found
    cases found
    exact isDamage_of_next? next
  | item w i w' next ih =>
    rw [collect_of_ok next] at found
    exact ih found

end Stream.Walk

/-! ## Runs -/

/-- A computation that goes on from each possible result settles. -/
theorem Settles.bind {α β : Type} {P : α → Prop} {Q : β → Prop} {x : Except PatchError α}
    {f : α → Except PatchError β} (first : Settles P x) (next : ∀ a, P a → Settles Q (f a)) :
    Settles Q (x >>= f) := by
  cases x with
  | ok a => exact next a first
  | error e => exact first

theorem Settles.map {α β : Type} {P : α → Prop} {Q : β → Prop} {x : Except PatchError α}
    {f : α → β} (first : Settles P x) (next : ∀ a, P a → Q (f a)) : Settles Q (x.map f) := by
  cases x with
  | ok a => exact next a first
  | error e => exact first

namespace Machine

theorem settles_checkRange (buffer : Buffer) (size start length : Nat) :
    Settles (fun _ => True) (checkRange buffer size start length) := by
  unfold checkRange
  split
  · trivial
  · rfl

theorem settles_moveCursor (buffer : Buffer) (cursor : Int64) (move : Int) (length : Nat) :
    Settles (fun _ => True) (moveCursor buffer cursor move length) := by
  unfold moveCursor
  dsimp only
  split
  · rfl
  · split
    · rfl
    · trivial

/-- An instruction that is executed keeps the size of the target. -/
theorem settles_execute (source : Array UInt8) (m : Machine) (i : Instruction) :
    Settles (·.target.size = m.target.size) (execute source m i) := by
  cases i with
  | sourceRead length =>
    refine .bind (settles_checkRange ..) fun _ _ => ?_
    exact .bind (settles_checkRange ..) fun _ _ => size_place ..
  | targetRead data => exact .bind (settles_checkRange ..) fun _ _ => size_place ..
  | sourceCopy length move =>
    refine .bind (settles_moveCursor ..) fun start _ => ?_
    refine .bind (settles_checkRange ..) fun _ _ => ?_
    exact .bind (settles_checkRange ..) fun _ _ => size_place ..
  | targetCopy length move =>
    refine .bind (settles_moveCursor ..) fun start _ => ?_
    refine .bind (settles_checkRange ..) fun _ _ => ?_
    exact .bind (settles_checkRange ..) fun _ _ => size_copyWithin ..

theorem settles_foldlM (source : Array UInt8) (m : Machine) (is : List Instruction) :
    Settles (·.target.size = m.target.size) (is.foldlM (execute source) m) := by
  induction is generalizing m with
  | nil => exact rfl
  | cons i rest ih =>
    rw [List.foldlM_cons]
    refine .bind (settles_execute source m i) fun m' size => ?_
    rw [← size]
    exact ih m'

/-- A run of the instructions of a walk keeps the size of the target, or the patch is damaged. -/
theorem settles_run (source : Array UInt8) (m : Machine) (w : Stream.Walk) :
    Settles (·.target.size = m.target.size) (run source m w.collect).result := by
  rw [run_result]
  refine .bind (settles_foldlM source m _) fun m' size => ?_
  cases found : w.collect.fault with
  | none => exact size
  | some fault => exact Stream.Walk.isDamage_of_collect found

end Machine

end BeatPatch
