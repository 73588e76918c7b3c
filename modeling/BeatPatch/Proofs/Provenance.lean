import BeatPatch.Proofs.Headers
import BeatPatch.Proofs.Refinement
import Mathlib.Data.List.OfFn

/-!
# Where the bytes of a target come from

A patch does not look at the bytes of a dump: it moves them. The tape machine over origins
instead of bytes says which byte of a target is which byte of the dump (`provenance`), and
applying a patch puts the bytes of the dump in their places (`apply_eq_resolve`). So dumps of one
size and checksum fare alike (`apply_of_same_checksum`).
-/

namespace BeatPatch

namespace Tape

variable {α β : Type} {cell : UInt8 → α} {source : List α} {targetSize : Nat} {w : Stream.Walk}
  {t : Tape α}

/-! ## Relabelling -/

/-- The tape with every cell relabelled. -/
def map (f : α → β) (t : Tape α) : Tape β := ⟨t.output.map f, t.sourceCursor, t.targetCursor⟩

theorem map_copyOwn (f : α → β) (blank : α) (output : List α) (start n : Nat) :
    (copyOwn blank output start n).map f = copyOwn (f blank) (output.map f) start n := by
  induction n generalizing output start with
  | zero => rfl
  | succ n ih =>
    have cell : (output.map f).getD start (f blank) = f (output.getD start blank) := by
      rw [List.getD_eq_getElem?_getD, List.getD_eq_getElem?_getD, List.getElem?_map]
      cases output[start]? <;> rfl
    rw [copyOwn, copyOwn, ih, List.map_append, List.map_singleton, cell]

/-- An instruction moves cells without looking at them, so that it executes alike on relabelled
ones. -/
theorem map_step (f : α → β) (i : Instruction) :
    map f <$> step cell source targetSize t i =
      step (f ∘ cell) (source.map f) targetSize (t.map f) i := by
  obtain ⟨output, sourceCursor, targetCursor⟩ := t
  cases i with
  | sourceRead length =>
    simp only [step, map, map_bind, map_pure, List.length_map, List.map_append, List.map_take,
      List.map_drop]
  | targetRead data =>
    simp only [step, map, map_bind, map_pure, List.length_map, List.map_append, List.map_map]
  | sourceCopy length move =>
    simp only [step, map, map_bind, map_pure, List.length_map, List.map_append, List.map_take,
      List.map_drop]
  | targetCopy length move =>
    simp only [step, map, map_bind, map_pure, List.length_map, map_copyOwn, Function.comp_apply]

/-- A run over relabelled cells is the relabelled run, and it fails where that fails. -/
theorem map_run (f : α → β) :
    List.map f <$> run cell source targetSize w t =
      run (f ∘ cell) (source.map f) targetSize w (t.map f) := by
  induction w using Stream.Walk.induction generalizing t with
  | ended w next =>
    rw [run_of_none next, run_of_none next]
    simp only [finish, map, List.length_map, List.map_append, List.map_replicate,
      Function.comp_apply, Functor.map, Except.map]
  | fault w e w' next =>
    rw [run_of_error next, run_of_error next]
    rfl
  | item w i w' next ih =>
    rw [run_of_ok next, run_of_ok next, ← map_step, map_bind, bind_map_left]
    simp only [ih]

end Tape

/-! ## Origins -/

/-- Where a byte of a target comes from: it is always the same, or it is a byte of the dump. -/
inductive Origin (sourceSize : Nat) where
  | byte (value : UInt8)
  | dump (index : Fin sourceSize)
deriving DecidableEq, Repr

/-- The byte of an origin, for a dump. -/
def Origin.resolve {sourceSize : Nat} (source : Bytes) (size : source.length = sourceSize) :
    Origin sourceSize → UInt8
  | .byte value => value
  | .dump index => source.get (index.cast size.symm)

/-- Where the bytes of the target come from that a patch gives for dumps of a size. -/
def provenance (sourceSize : Nat) (patch : Bytes) : Except PatchError (List (Origin sourceSize)) :=
  match Patch.readHeader (Reader.start patch) with
  | .ok (_, targetSize, _) body =>
    Tape.run .byte (List.ofFn .dump) targetSize
      { reader := body, limit := patch.length - Footer.size } Tape.fresh
  | .error e _ => .error e

theorem resolve_dump {sourceSize : Nat} (source : Bytes) (size : source.length = sourceSize) :
    (List.ofFn .dump).map (Origin.resolve source size) = source := by
  subst size
  rw [List.map_ofFn]
  exact List.ofFn_get source

section Admitted

variable {sourceSize : Nat} {source patch : Bytes} {a : Admission}

theorem provenance_of_check (admitted : Admission.check source patch = .ok a) :
    provenance source.length patch =
      Tape.run .byte (List.ofFn .dump) a.targetSize (a.walk patch) Tape.fresh := by
  obtain ⟨⟨metadata, -, header⟩, -⟩ := Admission.check_eq_ok_iff.mp admitted
  rw [provenance, header]
  rfl

/-- Each byte of the declared target has an origin. -/
theorem readHeader_of_provenance {origins : List (Origin source.length)}
    (admitted : Admission.check source patch = .ok a)
    (found : provenance source.length patch = .ok origins) :
    ∃ metadata body, Patch.readHeader (Reader.start patch) =
      .ok (source.length, origins.length, metadata) body := by
  obtain ⟨⟨metadata, -, header⟩, -⟩ := Admission.check_eq_ok_iff.mp admitted
  rw [provenance_of_check admitted] at found
  exact ⟨metadata, a.body, by rw [Tape.length_run (Nat.zero_le _) found, header]⟩

/-- Applying an admitted patch puts the bytes of the dump in their places. -/
theorem apply_eq_resolve (size : source.length = sourceSize)
    (sourceSmall : sourceSize < offsetBound) (admitted : Admission.check source patch = .ok a)
    (targetSmall : a.targetSize < offsetBound) :
    (apply source patch).result =
      List.map (Origin.resolve source size) <$> provenance sourceSize patch := by
  subst size
  rw [apply_result_of_lt admitted targetSmall, provenance_of_check admitted,
    Machine.run_blank_eq_tape sourceSmall targetSmall, Tape.map_run, resolve_dump]
  rfl

end Admitted

/-- A patch that gives a target for one dump gives one for every dump of its size and checksum. -/
theorem exists_apply_of_same_checksum {s₁ s₂ patch target : Bytes}
    (sameSize : s₂.length = s₁.length) (small : s₁.length < offsetBound)
    (sameSum : crc32 s₂ = crc32 s₁) (applied : (apply s₁ patch).result = .ok target) :
    ∃ target', (apply s₂ patch).result = .ok target' := by
  have alike := Admission.check_congr sameSize sameSum patch
  cases admitted : Admission.check s₁ patch with
  | error e => rw [apply_result_of_error admitted] at applied; cases applied
  | ok a =>
    rw [admitted] at alike
    rcases Nat.lt_or_ge a.targetSize offsetBound with targetSmall | large
    · rw [apply_eq_resolve rfl small admitted targetSmall] at applied
      rw [apply_eq_resolve sameSize small alike targetSmall]
      cases found : provenance s₁.length patch with
      | error e => rw [found] at applied; cases applied
      | ok origins => exact ⟨_, rfl⟩
    · rw [apply_result_of_le admitted large] at applied
      cases applied

/-- A patch acts on a dump by its size alone: it fails alike on two dumps of one size and
checksum, or it gives a target for both. Where the bytes of that target come from is determined by
the patch and the size, and it is the same for every dump that has the size and the checksum
which the patch asks for. -/
theorem apply_of_same_checksum {s₁ s₂ patch : Bytes} (sameSize : s₂.length = s₁.length)
    (small : s₁.length < offsetBound) (sameSum : crc32 s₂ = crc32 s₁) :
    (∃ e, (apply s₁ patch).result = .error e ∧ (apply s₂ patch).result = .error e) ∨
    ∃ origins : List (Origin s₁.length),
      provenance s₁.length patch = .ok origins ∧
      (∃ metadata body, Patch.readHeader (Reader.start patch) =
        .ok (s₁.length, origins.length, metadata) body) ∧
      (apply s₁ patch).result = .ok (origins.map (Origin.resolve s₁ rfl)) ∧
      (apply s₂ patch).result = .ok (origins.map (Origin.resolve s₂ sameSize)) ∧
      ∀ source (size : source.length = s₁.length),
        Footer.expectedSource patch = .ok (crc32 source) →
        (apply source patch).result = .ok (origins.map (Origin.resolve source size)) := by
  have alike := Admission.check_congr sameSize sameSum patch
  cases admitted : Admission.check s₁ patch with
  | error e =>
    rw [admitted] at alike
    exact .inl ⟨e, apply_result_of_error admitted, apply_result_of_error alike⟩
  | ok a =>
    rw [admitted] at alike
    rcases Nat.lt_or_ge a.targetSize offsetBound with targetSmall | large
    · cases found : provenance s₁.length patch with
      | error e =>
        refine .inl ⟨e, ?_, ?_⟩
        · rw [apply_eq_resolve rfl small admitted targetSmall, found]
          rfl
        · rw [apply_eq_resolve sameSize small alike targetSmall, found]
          rfl
      | ok origins =>
        have result {source : Bytes} (size : source.length = s₁.length)
            (passes : Admission.check source patch = .ok a) :
            (apply source patch).result = .ok (origins.map (Origin.resolve source size)) := by
          rw [apply_eq_resolve size small passes targetSmall, found]
          rfl
        refine .inr ⟨origins, rfl, readHeader_of_provenance admitted found, result rfl admitted,
          result sameSize alike, fun source size asked => result size ?_⟩
        -- the footer asks for one checksum, so this dump has that of the first
        obtain ⟨-, footer⟩ := Admission.check_eq_ok_iff.mp admitted
        rw [asked, Except.ok.injEq] at footer
        rw [Admission.check_congr size footer, admitted]
    · exact .inl ⟨_, apply_result_of_le admitted large, apply_result_of_le alike large⟩

/-- Two dumps that differ in every byte and have one checksum, and a patch for both. -/
theorem apply_of_same_checksum_collision :
    let first : Bytes := [0x61, 0x62, 0x63, 0x64, 0x65]
    let second : Bytes := [0xA2, 0x68, 0xF0, 0x09, 0x67]
    crc32 second = crc32 first ∧
      (apply first shortOfTarget).result =
        .ok [0x61, 0x62, 0x78, 0x79, 0x62, 0x63, 0x64, 0x62, 0x63, 0x64, 0x62, 0, 0, 0] ∧
      (apply second shortOfTarget).result =
        .ok [0xA2, 0x68, 0x78, 0x79, 0x68, 0xF0, 0x09, 0x68, 0xF0, 0x09, 0x68, 0, 0, 0] := by
  intro first second
  have sameSum : crc32 second = crc32 first := by decide +kernel
  have origins : provenance 5 shortOfTarget =
      .ok [.dump 0, .dump 1, .byte 0x78, .byte 0x79, .dump 1, .dump 2, .dump 3, .dump 1, .dump 2,
        .dump 3, .dump 1, .byte 0, .byte 0, .byte 0] := by
    decide +kernel
  rcases @apply_of_same_checksum first second shortOfTarget rfl (by decide) sameSum with
    ⟨e, fails, -⟩ | ⟨found, same, -, one, other, -⟩
  · have ends : (apply first shortOfTarget).result.isOk = true := by decide +kernel
    rw [fails] at ends
    cases ends
  · cases origins.symm.trans same
    exact ⟨sameSum, one, other⟩

end BeatPatch
