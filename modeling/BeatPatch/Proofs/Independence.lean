import BeatPatch.Family.SuperMarioBros2
import BeatPatch.Proofs.KnownDumps
import BeatPatch.Proofs.Provenance

/-!
# Repairs that do not get in each other's way

A patch declares one size, so of two dumps of different sizes it takes at most one for the right
one. Another header keeps the size of a dump and taking off a copier header does not; hence at
most one of these two repairs gets past the gate (`Patch.Rejects.sameSize_or_drop`). Without
conversion patches the repairs may thus be tried in either order, and allowing more of them
changes no success (`adaptiveApply_of_unconverted`). With conversion patches that fail only on
the wrong input, allowing more of them still loses no success (`exists_adaptiveApply_of_within`).
-/

namespace BeatPatch

/-- Of a rejected dump, either every dump of the same size is rejected or the dump without a
copier header is: only an empty dump keeps its size without one, and that one stays as it is. -/
theorem Patch.Rejects.sameSize_or_drop {source patch : Bytes} (rejects : Rejects patch source) :
    (∀ dump : Bytes, dump.length = source.length → Rejects patch dump) ∨
      Rejects patch (source.drop copierHeaderSize) := by
  obtain ⟨declared, declares⟩ := rejects.exists_declared
  by_cases size : declared = source.length
  · right
    cases source with
    | nil => exact rejects
    | cons byte rest =>
      apply rejects_of_otherSize declares
      rw [size, List.length_drop, List.length_cons, copierHeaderSize]
      omega
  · left
    intro dump same
    exact rejects_of_otherSize declares (by rw [same]; exact size)

/-! ## Repairs of a rejected dump -/

/-- No conversion patch is available. -/
def Family.Unconverted (family : Family) : Prop :=
  ∀ source target, family.conversion source target = none

/-- Conversion patches fail for no other cause than a wrong input, so their targets can be held. -/
def Family.SoundConversions (family : Family) : Prop :=
  ∀ source target conversion, family.conversion source target = some conversion →
    ∀ dump e, (apply dump conversion).result = .error e → e.isWrongInput = true

/-- Every recovery that the first options allow is allowed by the second. -/
structure RecoveryOptions.Within (o₁ o₂ : RecoveryOptions) : Prop where
  knownDumps : o₁.knownDumps = true → o₂.knownDumps = true
  copierHeader : o₁.copierHeader = true → o₂.copierHeader = true

theorem Family.unconverted_superMarioBros2 : (Family.superMarioBros2 {}).Unconverted := by
  intro source target
  cases source <;> cases target <;> rfl

section Rejected

variable {family : Family} {options : RecoveryOptions} {source patch target : Bytes}

theorem attempt_of_rejects {dump : Bytes} (recovery : Recovery)
    (rejects : Patch.Rejects patch dump) :
    (attempt recovery (apply dump patch)).result = .ok none := by
  obtain ⟨e, failed, wrong⟩ := rejects
  exact attempt_of_misfit failed wrong

theorem removeCopierHeader_result :
    (removeCopierHeader source patch).result =
      (attempt .copierHeaderRemoval (apply (source.drop copierHeaderSize) patch)).result.map
        (Option.map (source.take copierHeaderSize ++ ·)) := by
  rw [removeCopierHeader, Logged.bind_result]
  rfl

theorem removeCopierHeader_of_rejects
    (rejects : Patch.Rejects patch (source.drop copierHeaderSize)) :
    (removeCopierHeader source patch).result = .ok none := by
  rw [removeCopierHeader_result, attempt_of_rejects _ rejects]
  rfl

/-- A target behind a copier header is the target of the dump without it. -/
theorem exists_apply_of_removeCopierHeader
    (repaired : (removeCopierHeader source patch).result = .ok (some target)) :
    ∃ body, (apply (source.drop copierHeaderSize) patch).result = .ok body := by
  rw [removeCopierHeader_result] at repaired
  cases applied : (apply (source.drop copierHeaderSize) patch).result with
  | ok body => exact ⟨body, rfl⟩
  | error e =>
    cases wrong : e.isWrongInput with
    | true => rw [attempt_of_misfit applied wrong] at repaired; cases repaired
    | false => rw [attempt_of_error applied wrong] at repaired; cases repaired

/-- Without conversion patches only another header may help a known dump. -/
theorem repairKnownDump_of_unconverted (unconverted : family.Unconverted)
    (rejects : ∀ dump : Bytes, dump.length = source.length → Patch.Rejects patch dump) :
    (repairKnownDump family source patch).result = .ok none := by
  unfold repairKnownDump
  cases found : Repair.find family source patch with
  | none => rfl
  | reheader required =>
    rw [Logged.bind_result, Logged.note_result]
    exact attempt_of_rejects _ (rejects _ (Version.length_reheader required source))
  | unavailable current required => rfl
  | convert current canonical required conversion =>
    obtain ⟨-, converts⟩ := Repair.find_eq_convert_iff.mp ⟨current, found⟩
    have available := converts.available
    rw [unconverted] at available
    cases available

/-- Without conversion patches at most one of the two repairs is of any help. -/
theorem unhelpful_of_unconverted (unconverted : family.Unconverted)
    (rejects : Patch.Rejects patch source) :
    (repairKnownDump family source patch).result = .ok none ∨
      (removeCopierHeader source patch).result = .ok none := by
  rcases rejects.sameSize_or_drop with sameSize | stripped
  · exact .inl (repairKnownDump_of_unconverted unconverted sameSize)
  · exact .inr (removeCopierHeader_of_rejects stripped)

/-- A patch that gives a target for one dump fails on others only because they are wrong inputs:
it does not tell dumps of one size and checksum apart. -/
theorem isWrongInput_of_other {dump other : Bytes} {e : PatchError}
    (applied : (apply dump patch).result = .ok target)
    (small : other.length = dump.length → dump.length < offsetBound)
    (failed : (apply other patch).result = .error e) : e.isWrongInput = true := by
  by_cases same : other.length = dump.length ∧ crc32 other = crc32 dump
  · obtain ⟨size, sum⟩ := same
    obtain ⟨target', success⟩ := exists_apply_of_same_checksum size (small size) sum applied
    rw [success] at failed
    cases failed
  · obtain ⟨cause, misfit, wrong⟩ := (Patch.fits_of_apply applied).misfit same
    rw [misfit] at failed
    cases failed
    exact wrong

/-- If the dump is of use without a copier header, looking at the table first does no harm: another
header does not help, and a converted dump that gets past the gate has the size and the checksum
of the dump without a copier header, so that it is of use as well. -/
theorem exists_repairKnownDump {body : Bytes} (sound : family.SoundConversions)
    (rejects : Patch.Rejects patch source)
    (applied : (apply (source.drop copierHeaderSize) patch).result = .ok body) :
    ∃ repaired, (repairKnownDump family source patch).result = .ok repaired := by
  have outcome : Outcome family ⟨true, false⟩ source patch _ := outcome_repairKnownDump rfl
  generalize (repairKnownDump family source patch).result = result at outcome ⊢
  cases outcome with
  | unhelpful => exact ⟨_, rfl⟩
  | target candidate applied => exact ⟨_, rfl⟩
  | failure retry failed other =>
    exfalso
    rw [← Bool.not_eq_true] at other
    cases retry with
    | conversion allowed requires converts =>
      exact other (sound _ _ _ converts.available _ _ failed)
    | repaired candidate =>
      cases candidate with
      | reheadered allowed requires program =>
        rcases rejects.sameSize_or_drop with sameSize | ⟨cause, misfit, -⟩
        · obtain ⟨cause, misfit, wrong⟩ := sameSize _ (Version.length_reheader _ source)
          rw [misfit] at failed
          cases failed
          exact other wrong
        · rw [misfit] at applied
          cases applied
      | converted allowed requires converts done =>
        refine other (isWrongInput_of_other applied (fun size => ?_) failed)
        rw [← size, Version.length_reheader]
        exact length_lt_of_apply done
      | stripped allowed => cases allowed

end Rejected

/-! ## Adaptive application -/

section Adaptive

variable {family : Family} {source patch : Bytes}

/-- Adaptive application that takes off a copier header before it looks at the table. -/
def adaptiveApplyReversed (family : Family) (options : RecoveryOptions) (source patch : Bytes) :
    Logged Bytes :=
  applyRepairing (orThen (ifAllowed options.copierHeader (removeCopierHeader source patch))
    (ifAllowed options.knownDumps (repairKnownDump family source patch))) source patch

/-- What the options allow gives a target if one of the repairs does, and the first of them is of
no help otherwise. -/
theorem adaptiveApply_eq_ok_iff {options : RecoveryOptions} {target : Bytes} :
    (adaptiveApply family options source patch).result = .ok target ↔
      (apply source patch).result = .ok target ∨ Patch.Rejects patch source ∧
        (options.knownDumps = true ∧
            (repairKnownDump family source patch).result = .ok (some target) ∨
          (ifAllowed options.knownDumps (repairKnownDump family source patch)).result = .ok none ∧
            options.copierHeader = true ∧
            (removeCopierHeader source patch).result = .ok (some target)) := by
  rw [adaptiveApply_eq, applyRepairing_eq_ok_iff, tryRepairs_eq, orThen_eq_some_iff,
    ifAllowed_eq_some_iff, ifAllowed_eq_some_iff]

/-- Without conversion patches the repairs neither mask nor need each other: allowing more of them
keeps every success and its target, and trying them in the other order gives the same results. -/
theorem adaptiveApply_of_unconverted (unconverted : family.Unconverted) :
    (∀ (o₁ o₂ : RecoveryOptions) (target : Bytes), o₁.Within o₂ →
      (adaptiveApply family o₁ source patch).result = .ok target →
      (adaptiveApply family o₂ source patch).result = .ok target) ∧
    ∀ options, (adaptiveApplyReversed family options source patch).result =
      (adaptiveApply family options source patch).result := by
  constructor
  · intro o₁ o₂ target within success
    rw [adaptiveApply_eq_ok_iff] at success ⊢
    rcases success with direct | ⟨rejects, ⟨allowed, helps⟩ | ⟨-, allowed, helps⟩⟩
    · exact .inl direct
    · exact .inr ⟨rejects, .inl ⟨within.knownDumps allowed, helps⟩⟩
    · have idle : (repairKnownDump family source patch).result = .ok none := by
        rcases unhelpful_of_unconverted unconverted rejects with known | copier
        · exact known
        · rw [copier] at helps
          cases helps
      exact .inr ⟨rejects, .inr ⟨ifAllowed_of_unhelpful _ idle, within.copierHeader allowed, helps⟩⟩
  · intro options
    rw [adaptiveApplyReversed, adaptiveApply_eq, tryRepairs_eq]
    apply applyRepairing_congr
    intro rejects
    apply orThen_comm
    exact (unhelpful_of_unconverted unconverted rejects).symm.imp (ifAllowed_of_unhelpful _)
      (ifAllowed_of_unhelpful _)

/-- A patch for the empty dump, to which it adds a byte. -/
def bytePatch : Bytes := signature ++ [0x80, 0x81, 0x80, 0x81, 7] ++ List.replicate 12 0

/-- A dump shorter than a copier header is taken for one as a whole. -/
theorem adaptiveApply_of_unconverted_byte :
    (adaptiveApply (Family.superMarioBros2 {}) {} [9] bytePatch).result = .ok [9, 7] ∧
      (adaptiveApplyReversed (Family.superMarioBros2 {}) {} [9] bytePatch).result = .ok [9, 7] := by
  have alone : (adaptiveApply (Family.superMarioBros2 {}) ⟨false, true⟩ [9] bytePatch).result =
      .ok [9, 7] := by decide +kernel
  obtain ⟨more, order⟩ :=
    @adaptiveApply_of_unconverted _ [9] bytePatch Family.unconverted_superMarioBros2
  have both := more ⟨false, true⟩ {} [9, 7] ⟨nofun, fun _ => rfl⟩ alone
  exact ⟨both, (order {}).trans both⟩

/-- With sound conversion patches, allowing more repairs keeps every success. The target may be
another one, since a converted dump has no copier header in front. -/
theorem exists_adaptiveApply_of_within {o₁ o₂ : RecoveryOptions} {target : Bytes}
    (sound : family.SoundConversions) (within : o₁.Within o₂)
    (success : (adaptiveApply family o₁ source patch).result = .ok target) :
    ∃ target', (adaptiveApply family o₂ source patch).result = .ok target' := by
  simp only [adaptiveApply_eq_ok_iff] at success ⊢
  rcases success with direct | ⟨rejects, ⟨allowed, helps⟩ | ⟨-, allowed, helps⟩⟩
  · exact ⟨target, .inl direct⟩
  · exact ⟨target, .inr ⟨rejects, .inl ⟨within.knownDumps allowed, helps⟩⟩⟩
  · obtain ⟨body, applied⟩ := exists_apply_of_removeCopierHeader helps
    obtain ⟨repaired, known⟩ := exists_repairKnownDump sound rejects applied
    cases repaired with
    | none =>
      have idle := ifAllowed_of_unhelpful o₂.knownDumps known
      exact ⟨target, .inr ⟨rejects, .inr ⟨idle, within.copierHeader allowed, helps⟩⟩⟩
    | some target' =>
      cases tried : o₂.knownDumps with
      | true => exact ⟨target', .inr ⟨rejects, .inl ⟨rfl, known⟩⟩⟩
      | false => exact ⟨target, .inr ⟨rejects, .inr ⟨rfl, within.copierHeader allowed, helps⟩⟩⟩

/-- A family with a patch that converts a dump of one byte to the empty one. -/
def vanishingFamily : Family where
  name := "vanishing"
  versions := [
    (1, { name := "byte", revision := .rev0, programChecksum := 0
          header := .replicate headerSize 0x50 }),
    (0, { name := "empty", revision := .revA, programChecksum := 1
          header := .replicate headerSize 0x41 })]
  conversions := [⟨.rev0, .revA, some (signature ++ [0x81, 0x80, 0x80,
    0x79, 0xBE, 0x69, 0xB9, 0, 0, 0, 0, 0, 0, 0, 0])⟩]

theorem soundConversions_vanishingFamily : vanishingFamily.SoundConversions := by
  intro source target conversion available dump e failed
  cases source <;> cases target <;> cases available
  have converts : (apply [0x50] (signature ++ [0x81, 0x80, 0x80,
      0x79, 0xBE, 0x69, 0xB9, 0, 0, 0, 0, 0, 0, 0, 0])).result = .ok [] := by decide +kernel
  exact isWrongInput_of_other converts (fun _ => by decide) failed

/-- A byte that the table would convert to the empty dump, and that is taken for a copier header
otherwise: both repairs give a target. -/
theorem exists_adaptiveApply_of_within_vanishing :
    (adaptiveApply vanishingFamily ⟨false, true⟩ [9] bytePatch).result = .ok [9, 7] ∧
      (adaptiveApply vanishingFamily {} [9] bytePatch).result = .ok [7] ∧
      ∃ target, (adaptiveApply vanishingFamily {} [9] bytePatch).result = .ok target := by
  have alone : (adaptiveApply vanishingFamily ⟨false, true⟩ [9] bytePatch).result =
      .ok [9, 7] := by decide +kernel
  have within : RecoveryOptions.Within ⟨false, true⟩ {} := ⟨nofun, fun _ => rfl⟩
  exact ⟨alone, by decide +kernel,
    exists_adaptiveApply_of_within soundConversions_vanishingFamily within alone⟩

/-- A copier header is transparent. A dump with one in front fares like the dump itself, and the
header comes to stand in front of the target; if the patch rejects the dump, what is reported is
the size with the header. -/
theorem adaptiveApply_of_copierHeader {options : RecoveryOptions} {header body : Bytes}
    (unconverted : family.Unconverted) (allowed : options.copierHeader = true)
    (long : header.length = copierHeaderSize)
    (declares : Patch.declaredSource patch = .ok body.length) :
    (∀ target, (apply body patch).result = .ok target →
      (adaptiveApply family options (header ++ body) patch).result = .ok (header ++ target)) ∧
    (∀ e, (apply body patch).result = .error e → e.isWrongInput = false →
      (adaptiveApply family options (header ++ body) patch).result = .error e) ∧
    (∀ e, (apply body patch).result = .error e → e.isWrongInput = true →
      (adaptiveApply family options (header ++ body) patch).result =
        .error (.wrongInputSize body.length (body.length + copierHeaderSize))) := by
  have size : (header ++ body).length = body.length + copierHeaderSize := by
    rw [List.length_append, long, Nat.add_comm]
  have larger : body.length ≠ body.length + copierHeaderSize := by
    rw [copierHeaderSize]
    omega
  have misfit : (apply (header ++ body) patch).result =
      .error (.wrongInputSize body.length (body.length + copierHeaderSize)) := by
    rw [← size] at larger ⊢
    exact Patch.apply_of_otherSize declares larger
  -- another header does not change the size, so the table is of no help
  have idle : (repairKnownDump family (header ++ body) patch).result = .ok none := by
    apply repairKnownDump_of_unconverted unconverted
    intro dump same
    apply Patch.rejects_of_otherSize declares
    rw [same, size]
    exact larger
  have helped : (tryRepairs family options (header ++ body) patch).result =
      (removeCopierHeader (header ++ body) patch).result := by
    rw [tryRepairs_eq, orThen_of_unhelpful_left (ifAllowed_of_unhelpful _ idle), ifAllowed,
      if_pos allowed]
  have result : (adaptiveApply family options (header ++ body) patch).result = _ :=
    adaptiveApply_of_misfit misfit rfl
  rw [helped] at result
  rw [result, removeCopierHeader_result, ← long, List.drop_left, List.take_left]
  refine ⟨fun target applied => ?_, fun e failed other => ?_, fun e failed wrong => ?_⟩
  · rw [attempt_of_ok applied]
    rfl
  · rw [attempt_of_error failed other]
    rfl
  · rw [attempt_of_misfit failed wrong]
    rfl

/-- Two bytes behind a copier header: with the patch for them, with a damaged patch, and with a
patch for two other bytes. -/
theorem adaptiveApply_of_copierHeader_two :
    let header := List.replicate copierHeaderSize 0xCC
    let adapted (body patch : Bytes) :=
      (adaptiveApply (Family.superMarioBros2 {}) {} (header ++ body) patch).result
    adapted [0x41, 0x41] (tinyPatch 2) = .ok (header ++ [0x41, 0x41]) ∧
      adapted [0x41, 0x41] (tinyPatch 9) = .error (.outOfBounds .source 0 9) ∧
      adapted [0x42, 0x42] (tinyPatch 2) = .error (.wrongInputSize 2 514) := by
  intro header adapted
  have long : header.length = copierHeaderSize := List.length_replicate
  have patched : (apply [0x41, 0x41] (tinyPatch 2)).result = .ok [0x41, 0x41] := by
    decide +kernel
  have damaged : (apply [0x41, 0x41] (tinyPatch 9)).result =
      .error (.outOfBounds .source 0 9) := by decide +kernel
  have misfit : (apply [0x42, 0x42] (tinyPatch 2)).result =
      .error (.wrongInputChecksum 0xA9601DBD (crc32 [0x42, 0x42])) := by decide +kernel
  have unconverted := Family.unconverted_superMarioBros2
  have declares (kept : Nat) : Patch.declaredSource (tinyPatch kept) = .ok 2 := rfl
  obtain ⟨kept, -, -⟩ := @adaptiveApply_of_copierHeader _ (tinyPatch 2) {} header [0x41, 0x41]
    unconverted rfl long (declares 2)
  obtain ⟨-, failed, -⟩ := @adaptiveApply_of_copierHeader _ (tinyPatch 9) {} header [0x41, 0x41]
    unconverted rfl long (declares 9)
  obtain ⟨-, -, rejected⟩ := @adaptiveApply_of_copierHeader _ (tinyPatch 2) {} header [0x42, 0x42]
    unconverted rfl long (declares 2)
  exact ⟨kept _ patched, failed _ damaged rfl, rejected _ misfit rfl⟩

end Adaptive

end BeatPatch
