import BeatPatch.Proofs.Announcements

/-!
# Missing conversions

The report on a patch lists the revisions of which no dump can be converted to the required one.
Adaptive application looks at one dump and warns that its conversion is missing. Both go through
the same entries in loops of their own, and they agree whatever the table lists and in which order:
a dump of another revision is warned about if that revision is on the list, and else its conversion
patch is applied to it under the canonical header (`warnings_eq_of_needsConversion`).
-/

namespace BeatPatch

/-! ## The list of missing conversions -/

namespace Family

variable {family : Family} {target revision : Revision} {missing : List Revision}

/-- The revision is another one than the target, and no patch turns it into that. -/
def Lacks (family : Family) (target revision : Revision) : Prop :=
  revision ≠ target ∧ family.conversion revision target = none

instance : Decidable (family.Lacks target revision) :=
  inferInstanceAs (Decidable (_ ∧ _))

/-- Takes a revision down if it lacks a conversion and is not down yet. -/
def noteMissing (family : Family) (target : Revision) (missing : List Revision)
    (revision : Revision) : List Revision :=
  if family.Lacks target revision ∧ revision ∉ missing then missing ++ [revision] else missing

theorem missingConversions_eq :
    family.missingConversions target =
      ((family.versions.map Prod.snd).map Version.revision).foldl
        (family.noteMissing target) [] := by
  simp only [missingConversions, List.foldl_map, noteMissing, Lacks, and_assoc]

theorem mem_noteMissing_iff {other : Revision} :
    revision ∈ family.noteMissing target missing other ↔
      revision ∈ missing ∨ revision = other ∧ family.Lacks target revision := by
  unfold noteMissing
  split
  next noted =>
    rw [List.mem_append, List.mem_singleton]
    refine or_congr_right (iff_self_and.mpr ?_)
    rintro rfl
    exact noted.1
  next skipped =>
    refine (or_iff_left_of_imp ?_).symm
    rintro ⟨rfl, lacks⟩
    by_contra fresh
    exact skipped ⟨lacks, fresh⟩

theorem nodup_noteMissing (nodup : missing.Nodup) :
    (family.noteMissing target missing revision).Nodup := by
  unfold noteMissing
  split
  next noted =>
    refine List.nodup_append.mpr ⟨nodup, List.pairwise_singleton _ _, ?_⟩
    rintro other before _ here rfl
    exact noted.2 (List.mem_singleton.mp here ▸ before)
  next => exact nodup

theorem mem_foldl_noteMissing_iff {revisions : List Revision} :
    revision ∈ revisions.foldl (family.noteMissing target) missing ↔
      revision ∈ missing ∨ revision ∈ revisions ∧ family.Lacks target revision := by
  induction revisions generalizing missing with
  | nil => simp
  | cons other rest ih =>
    rw [List.foldl_cons, ih, mem_noteMissing_iff, or_assoc, ← or_and_right, List.mem_cons]

theorem nodup_foldl_noteMissing {revisions : List Revision} (nodup : missing.Nodup) :
    (revisions.foldl (family.noteMissing target) missing).Nodup := by
  induction revisions generalizing missing with
  | nil => exact nodup
  | cons other rest ih => exact ih (nodup_noteMissing nodup)

theorem mem_missingConversions_iff :
    revision ∈ family.missingConversions target ↔
      (∃ v ∈ family.versions.map Prod.snd, v.revision = revision) ∧
        family.Lacks target revision := by
  rw [missingConversions_eq, mem_foldl_noteMissing_iff, or_iff_right List.not_mem_nil, List.mem_map]

theorem nodup_missingConversions : (family.missingConversions target).Nodup := by
  rw [missingConversions_eq]
  exact nodup_foldl_noteMissing List.nodup_nil

end Family

/-! ## Warnings -/

open Logged

/-- The records of a log that are at the level of warnings. -/
def warnings (log : List LogRecord) : List LogRecord :=
  log.filter fun record => record.level = .warn

theorem warnings_append (log more : List LogRecord) :
    warnings (log ++ more) = warnings log ++ warnings more :=
  List.filter_append log more

theorem Logged.Notes.warnings_eq_nil {α : Type} {x : Logged α}
    (notes : x.Notes fun record => record.level ≠ .warn) : warnings x.log = [] :=
  List.filter_eq_nil_iff.mpr fun record mem warned =>
    notes record mem (of_decide_eq_true warned)

theorem LogRecord.Minor.level_ne_warn {record : LogRecord} (minor : record.Minor) :
    record.level ≠ .warn := by
  intro warned
  rw [LogRecord.Minor, warned] at minor
  exact absurd minor (by decide)

section Dumps

variable {family : Family} {options : RecoveryOptions} {source patch : Bytes}

theorem notes_attempt_apply (recovery : Recovery) (dump patch : Bytes) :
    (attempt recovery (apply dump patch)).Notes fun record => record.level ≠ .warn :=
  notes_attempt ((notes_apply dump patch).imp fun _ => LogRecord.Minor.level_ne_warn)
    (by simp [LogRecord.level]) fun e => by simp [LogRecord.level]

theorem notes_removeCopierHeader (source patch : Bytes) :
    (removeCopierHeader source patch).Notes fun record => record.level ≠ .warn :=
  (notes_attempt_apply _ _ _).bind fun _ => notes_of _

/-- Only the table of known dumps gives rise to warnings. -/
theorem warnings_adaptiveApply (rejects : Patch.Rejects patch source)
    (allowed : options.knownDumps = true) :
    warnings (adaptiveApply family options source patch).log =
      warnings (repairKnownDump family source patch).log := by
  obtain ⟨misfit, failed, wrong⟩ := rejects
  have direct (log : List LogRecord) : warnings (.directFailure misfit :: log) = warnings log :=
    List.filter_cons_of_neg (by simp [LogRecord.level])
  have calm : (ifAllowed options.copierHeader (removeCopierHeader source patch)).Notes
      fun record => record.level ≠ .warn := by
    unfold ifAllowed
    split
    · exact notes_removeCopierHeader source patch
    · exact notes_of _
  rw [log_adaptiveApply_of_misfit failed wrong, direct, tryRepairs_eq, ifAllowed, if_pos allowed]
  by_cases unhelpful : (repairKnownDump family source patch).result = .ok none
  · rw [log_orThen_of_unhelpful unhelpful, warnings_append, calm.warnings_eq_nil, List.append_nil]
  · rw [log_orThen_of_decisive unhelpful]

/-- What is logged on behalf of the table comes right behind the direct attempt. -/
theorem log_prefix_adaptiveApply {misfit : PatchError}
    (failed : (apply source patch).result = .error misfit) (wrong : misfit.isWrongInput = true)
    (allowed : options.knownDumps = true) :
    .directFailure misfit :: (repairKnownDump family source patch).log <+:
      (adaptiveApply family options source patch).log := by
  rw [log_adaptiveApply_of_misfit failed wrong, tryRepairs_eq, ifAllowed, if_pos allowed]
  exact (List.prefix_cons_inj _).mpr (log_prefix_bind ..)

/-! ## Dumps of another revision -/

variable {current required canonical : Version} {conversion : Bytes}

/-- The patch rejects the dump, and the version that it requires is listed. The dump has the program
of another listed version, which is of another revision, and not that of the required one. -/
structure NeedsConversion (family : Family) (source patch : Bytes) (current required : Version) :
    Prop where
  rejects : Patch.Rejects patch source
  requires : family.Requires patch required
  program : programChecksum source ≠ required.programChecksum
  listed : current ∈ family.versions.map Prod.snd
  revision : current.revision ≠ required.revision
  same : current.programChecksum = programChecksum source

/-- The conversion patch is applied to the dump under the canonical header, and this is logged
behind the direct attempt. Its failure stands unless it is for a wrong input, and to what it makes
of the dump the patch is applied under the required header. -/
structure AppliesConversion (family : Family) (options : RecoveryOptions) (source patch : Bytes)
    (canonical required : Version) (conversion : Bytes) : Prop where
  told : ∃ misfit, (apply source patch).result = .error misfit ∧
    .directFailure misfit :: .converting family.name canonical.revision required.revision ::
        (attempt .revisionConversion (apply (canonical.reheader source) conversion)).log <+:
      (adaptiveApply family options source patch).log
  failed : ∀ {e}, (apply (canonical.reheader source) conversion).result = .error e →
    e.isWrongInput = false → (adaptiveApply family options source patch).result = .error e
  converted : ∀ {output}, (apply (canonical.reheader source) conversion).result = .ok output →
    (∀ e, (apply (required.reheader output) patch).result = .error e → e.isWrongInput = false) →
    (adaptiveApply family options source patch).result =
      (apply (required.reheader output) patch).result

/-- The search starts from the first listed version with the program of the dump. That may be
another than `current`, but not of another revision. -/
theorem NeedsConversion.find_eq (needs : NeedsConversion family source patch current required) :
    ∃ found : Version, found.revision = current.revision ∧
      Repair.find family source patch =
        match family.conversion current.revision required.revision with
        | none => .unavailable found required
        | some conversion =>
          match family.canonical current.revision with
          | none => .none
          | some canonical => .convert found canonical required conversion := by
  obtain ⟨found, related⟩ := Repair.exists_related? needs.listed needs.revision needs.same
  have revision : found.revision = current.revision :=
    Revision.eq_of_ne (Repair.of_related? related).2.1 needs.revision
  refine ⟨found, revision, ?_⟩
  have search : Repair.towards family source required = _ := Repair.towards_of_ne needs.program
  simp only [related, revision] at search
  rw [Repair.find, Family.requires_iff.mp needs.requires]
  exact search

theorem NeedsConversion.exists_canonical
    (needs : NeedsConversion family source patch current required) :
    ∃ canonical, family.canonical current.revision = some canonical := by
  apply Option.isSome_iff_exists.mp
  apply List.find?_isSome.mpr
  exact ⟨current, needs.listed, decide_eq_true rfl⟩

theorem NeedsConversion.mem_missing_iff
    (needs : NeedsConversion family source patch current required) :
    current.revision ∈ family.missingConversions required.revision ↔
      family.conversion current.revision required.revision = none := by
  rw [Family.mem_missingConversions_iff]
  exact ⟨fun missing => missing.2.2,
    fun none => ⟨⟨current, needs.listed, rfl⟩, needs.revision, none⟩⟩

/-- A dump whose conversion is missing is warned about. -/
theorem NeedsConversion.warnings_of_missing
    (needs : NeedsConversion family source patch current required)
    (allowed : options.knownDumps = true)
    (missing : family.conversion current.revision required.revision = none) :
    warnings (adaptiveApply family options source patch).log =
      [.noConversion family.name current.revision required.revision] := by
  obtain ⟨found, revision, search⟩ := needs.find_eq
  rw [missing] at search
  rw [warnings_adaptiveApply needs.rejects allowed, repairKnownDump, search, ← revision]
  rfl

section Convert

variable (rejects : Patch.Rejects patch source) (allowed : options.knownDumps = true)
  (search : Repair.find family source patch = .convert current canonical required conversion)

include rejects allowed search

theorem warnings_of_convert :
    warnings (adaptiveApply family options source patch).log = [] := by
  have notes : (repairKnownDump family source patch).Notes fun record => record.level ≠ .warn := by
    rw [repairKnownDump, search]
    refine (notes_note (by simp [LogRecord.level])).bind fun _ => ?_
    refine (notes_attempt_apply _ _ _).bind fun converted => ?_
    cases converted with
    | none => exact notes_of _
    | some output => exact notes_attempt_apply _ _ _
  rw [warnings_adaptiveApply rejects allowed, notes.warnings_eq_nil]

theorem appliesConversion_of_convert (revision : current.revision = canonical.revision) :
    AppliesConversion family options source patch canonical required conversion where
  told := by
    obtain ⟨misfit, failed, wrong⟩ := rejects
    refine ⟨misfit, failed, .trans ?_ (log_prefix_adaptiveApply failed wrong allowed)⟩
    rw [repairKnownDump, search, List.prefix_cons_inj, ← revision]
    exact (List.prefix_cons_inj _).mpr (log_prefix_bind ..)
  failed failed other := by
    refine adaptiveApply_of_repaired allowed rejects ?_
    simp only [repairKnownDump, search, bind_result, note_result, attempt_of_error failed other]
    rfl
  converted converted decisive := by
    refine adaptiveApply_of_repaired allowed rejects ?_
    rw [← attempt_of_decisive decisive]
    simp only [repairKnownDump, search, bind_result, note_result, attempt_of_ok converted]
    rfl

end Convert

/-- The report lists each revision without a conversion to the target once: the listed revisions
other than the target from which no patch leads there. Of a dump of another revision that a patch
rejects, adaptive application warns exactly if that revision is on the list, once. If it is not, the
conversion patch is there, and it is applied to the dump under the header of the canonical version
of that revision. -/
theorem warnings_eq_of_needsConversion :
    (∀ (family : Family) (target : Revision), (family.missingConversions target).Nodup ∧
      ∀ revision, revision ∈ family.missingConversions target ↔
        revision ≠ target ∧ (∃ v ∈ family.versions.map Prod.snd, v.revision = revision) ∧
          family.conversion revision target = none) ∧
    ∀ {family : Family} {options : RecoveryOptions} {source patch : Bytes}
      {current required : Version}, NeedsConversion family source patch current required →
      options.knownDumps = true →
      warnings (adaptiveApply family options source patch).log =
        (if current.revision ∈ family.missingConversions required.revision then
          [.noConversion family.name current.revision required.revision] else []) ∧
      (current.revision ∉ family.missingConversions required.revision →
        ∃ conversion canonical,
          family.conversion current.revision required.revision = some conversion ∧
          family.canonical current.revision = some canonical ∧
          AppliesConversion family options source patch canonical required conversion) := by
  refine ⟨fun family target => ⟨Family.nodup_missingConversions, fun revision => ?_⟩,
    fun {family options source patch current required} needs allowed => ?_⟩
  · rw [Family.mem_missingConversions_iff, Family.Lacks, and_left_comm]
  cases available : family.conversion current.revision required.revision with
  | none =>
    have listed := needs.mem_missing_iff.mpr available
    rw [if_pos listed]
    exact ⟨needs.warnings_of_missing allowed available, fun absent => absurd listed absent⟩
  | some conversion =>
    have absent := mt needs.mem_missing_iff.mp (available ▸ Option.some_ne_none conversion)
    rw [if_neg absent]
    obtain ⟨found, revision, search⟩ := needs.find_eq
    obtain ⟨canonical, first⟩ := needs.exists_canonical
    rw [available, first] at search
    have same : found.revision = canonical.revision :=
      revision.trans (Family.of_canonical first).2.symm
    exact ⟨warnings_of_convert needs.rejects allowed search, fun _ => ⟨conversion, canonical, rfl,
      first, appliesConversion_of_convert needs.rejects allowed search same⟩⟩

end Dumps

/-- A patch for the first of `shortDumps`. -/
def firstPatch : Bytes :=
  signature ++ [0x91, 0x80, 0x80, 0x05, 0x0C, 0x59, 0x4C] ++ List.replicate 8 0

/-- Only the first of `shortDumps` can be converted. So the second one is warned about where the
first is required, and a conversion is applied the other way. It does not fit the dump itself but
the dump under the header of the first version, and what it makes of that is patched under the
header of the second. -/
theorem warnings_adaptiveApply_shortDumps :
    let first := List.replicate headerSize 0 ++ [1]
    let second := List.replicate headerSize 0 ++ [2, 2]
    warnings (adaptiveApply shortDumps {} second firstPatch).log =
        [.noConversion "short" .revA .rev0] ∧
      warnings (adaptiveApply shortDumps {} first (shortPatch 0x92)).log = [] ∧
      AppliesConversion shortDumps {} first (shortPatch 0x92) shortFirst shortSecond
        shortConversion ∧
      (apply first shortConversion).result = .error (.wrongInputChecksum 0x4C590C05 0xBEE8C12B) ∧
      (apply (shortFirst.reheader first) shortConversion).result =
        .ok (List.replicate headerSize 0x50 ++ [2, 2]) ∧
      (adaptiveApply shortDumps {} first (shortPatch 0x92)).result =
        (apply (List.replicate headerSize 0x41 ++ [2, 2]) (shortPatch 0x92)).result ∧
      (apply (List.replicate headerSize 0x41 ++ [2, 2]) (shortPatch 0x92)).result =
        .ok [0x41, 2, 2] := by
  intro first second
  obtain ⟨-, agree⟩ := warnings_eq_of_needsConversion
  constructor
  · obtain ⟨misfit, program, same⟩ :
        (apply second firstPatch).result = .error (.wrongInputSize 17 18) ∧
          programChecksum second ≠ shortFirst.programChecksum ∧
          shortSecond.programChecksum = programChecksum second := by decide +kernel
    have needs : NeedsConversion shortDumps second firstPatch shortSecond shortFirst :=
      { rejects := ⟨_, misfit, rfl⟩
        requires := Family.requires_iff.mpr (by decide +kernel)
        program
        listed := by decide +kernel
        revision := by decide
        same }
    exact (agree needs rfl).1.trans (if_pos (by decide))
  · obtain ⟨misfit, program, same, unfit, converted, patched⟩ :
        (apply first (shortPatch 0x92)).result = .error (.wrongInputSize 18 17) ∧
          programChecksum first ≠ shortSecond.programChecksum ∧
          shortFirst.programChecksum = programChecksum first ∧
          (apply first shortConversion).result =
            .error (.wrongInputChecksum 0x4C590C05 0xBEE8C12B) ∧
          (apply (shortFirst.reheader first) shortConversion).result =
            .ok (List.replicate headerSize 0x50 ++ [2, 2]) ∧
          (apply (List.replicate headerSize 0x41 ++ [2, 2]) (shortPatch 0x92)).result =
            .ok [0x41, 2, 2] := by decide +kernel
    have needs : NeedsConversion shortDumps first (shortPatch 0x92) shortFirst shortSecond :=
      { rejects := ⟨_, misfit, rfl⟩
        requires := Family.requires_iff.mpr (by decide +kernel)
        program
        listed := by decide +kernel
        revision := by decide
        same }
    have listed : Revision.rev0 ∉ shortDumps.missingConversions .revA := by decide
    obtain ⟨told, applies⟩ := @agree shortDumps {} _ _ _ _ needs rfl
    obtain ⟨conversion, canonical, available, chosen, applied⟩ := applies listed
    cases available
    cases chosen
    have output : shortSecond.reheader (List.replicate headerSize 0x50 ++ [2, 2]) =
        List.replicate headerSize 0x41 ++ [2, 2] := by decide
    have result := applied.converted converted (by rw [output, patched]; exact nofun)
    rw [output] at result
    exact ⟨told.trans (if_neg listed), applied, unfit, converted, result, patched⟩

end BeatPatch
