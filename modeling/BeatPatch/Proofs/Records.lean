import BeatPatch.Adaptive

/-!
# Records that are made on the way

A logged result `Notes` a property if every record that is made on the way to it has the property,
which is kept by doing one thing after the other. Applying a patch makes minor records only, of what
is done and of the instructions that are executed; what is more severe comes from the attempts and
the repairs around it (`notes_apply`).
-/

namespace BeatPatch

/-- The record is less severe than information. -/
def LogRecord.Minor (record : LogRecord) : Prop := LogLevel.info.rank < record.level.rank

namespace Logged

variable {α β : Type} {P Q : LogRecord → Prop} {x : Logged α} {f : α → Logged β}

/-- Every record that is made on the way has the property. -/
def Notes (P : LogRecord → Prop) (x : Logged α) : Prop := ∀ record ∈ x.log, P record

theorem notes_of (result : Except PatchError α) : (of result).Notes P := nofun

theorem notes_note {record : LogRecord} (holds : P record) : (note record).Notes P := by
  intro other mem
  rwa [List.mem_singleton.mp mem]

theorem Notes.imp (notes : x.Notes P) (weaker : ∀ record, P record → Q record) : x.Notes Q :=
  fun record mem => weaker record (notes record mem)

theorem Notes.bind (first : x.Notes P) (next : ∀ a, (f a).Notes P) : (x >>= f).Notes P := by
  cases h : x.result with
  | ok a =>
    rw [bind_of_ok h]
    intro record mem
    exact (List.mem_append.mp mem).elim (first record) (next a record)
  | error e =>
    rw [bind_of_error h]
    exact first

/-- The records of what is done first come first. -/
theorem log_prefix_bind (x : Logged α) (f : α → Logged β) : x.log <+: (x >>= f).log := by
  cases h : x.result with
  | ok a => exact ⟨(f a).log, by rw [bind_of_ok h]⟩
  | error e => exact ⟨[], by rw [bind_of_error h, List.append_nil]⟩

end Logged

open Logged

theorem Machine.notes_runOnto {P : LogRecord → Prop} (executing : ∀ i n, P (.executing i n))
    (source : Array UInt8) {notes : Array LogRecord} (before : ∀ record ∈ notes.toList, P record)
    (m : Machine) (is : List Instruction) : (runOnto source notes m is).Notes P := by
  induction is generalizing notes m with
  | nil => exact before
  | cons i rest ih =>
    have noted : ∀ record ∈ (notes.push (.executing i m.output.toNat)).toList, P record := by
      rw [Array.toList_push]
      exact List.forall_mem_append.mpr ⟨before, List.forall_mem_singleton.mpr (executing ..)⟩
    rw [runOnto]
    split
    · exact ih noted _
    · exact noted

theorem Machine.notes_run (source : Array UInt8) (m : Machine) (stream : Stream) :
    (run source m stream).Notes LogRecord.Minor := by
  have executing (i : Instruction) (n : Nat) : (LogRecord.executing i n).Minor :=
    show 2 < 4 by decide
  have none : ∀ record ∈ (#[] : Array LogRecord).toList, record.Minor := fun _ => nofun
  refine (notes_runOnto executing source none m _).bind fun m => ?_
  split
  · exact notes_of _
  · exact notes_of _

/-- Applying a patch makes minor records only. -/
theorem notes_apply (source patch : Bytes) : (apply source patch).Notes LogRecord.Minor := by
  have debug {record : LogRecord} (level : record.level = .debug) : record.Minor := by
    rw [LogRecord.Minor, level]
    decide
  refine (notes_of _).bind fun admission => ?_
  refine (notes_note (debug rfl)).bind fun _ => ?_
  split
  · exact notes_of _
  · refine (Machine.notes_run _ _ _).bind fun m => ?_
    split
    · exact (notes_note (debug rfl)).bind fun _ => notes_of _
    · exact notes_of _

/-- An attempt makes the records of the application, and one of how it came out if that is no
failure. -/
theorem notes_attempt {P : LogRecord → Prop} {recovery : Recovery} {application : Logged Bytes}
    (notes : application.Notes P) (recovered : P (.recovered recovery))
    (unrecovered : ∀ e, P (.unrecovered recovery e)) :
    (attempt recovery application).Notes P := by
  unfold attempt
  split
  · exact List.forall_mem_append.mpr ⟨notes, List.forall_mem_singleton.mpr recovered⟩
  · split
    · exact List.forall_mem_append.mpr ⟨notes, List.forall_mem_singleton.mpr (unrecovered _)⟩
    · exact notes

end BeatPatch
