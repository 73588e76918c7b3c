import BeatPatch.Adaptive

/-!
# What the table of known dumps suggests

A family suggests a repair only for a patch that names a dump it lists (`Family.Requires`). It is
another header for a dump with the required program (`Repair.find_eq_reheader_iff`), and a
conversion for a dump with the program of the other revision (`Repair.find_eq_convert_iff`).
Whatever order the versions are listed in, which conversion that is depends on the two revisions
alone.
-/

namespace BeatPatch

/-- There are two revisions only. -/
theorem Revision.eq_of_ne {a b c : Revision} (ha : a ≠ c) (hb : b ≠ c) : a = b := by
  cases a <;> cases b <;> first | rfl | (cases c <;> contradiction)

namespace Family

/-- The family lists the dump whose checksum the patch names, and it is this version. -/
def Requires (family : Family) (patch : Bytes) (required : Version) : Prop :=
  ∃ checksum, Footer.expectedSource patch = .ok checksum ∧ family.lookup checksum = some required

theorem requires_iff {family : Family} {patch : Bytes} {required : Version} :
    family.Requires patch required ↔
      (Footer.expectedSource patch).toOption.bind family.lookup = some required := by
  unfold Requires
  cases Footer.expectedSource patch <;> simp [Except.toOption]

/-- The dump is of another revision than `required`, and `conversion` is for that revision under
the header of `canonical`. -/
structure Converts (family : Family) (source : Bytes) (canonical required : Version)
    (conversion : Bytes) : Prop where
  program : programChecksum source ≠ required.programChecksum
  listed : ∃ v ∈ family.versions.map Prod.snd,
    v.revision = canonical.revision ∧ v.programChecksum = programChecksum source
  revision : canonical.revision ≠ required.revision
  first : family.canonical canonical.revision = some canonical
  available : family.conversion canonical.revision required.revision = some conversion

theorem of_canonical {family : Family} {revision : Revision} {v : Version}
    (found : family.canonical revision = some v) :
    v ∈ family.versions.map Prod.snd ∧ v.revision = revision :=
  ⟨List.mem_of_find?_eq_some found, by simpa using List.find?_some found⟩

end Family

namespace Repair

variable {family : Family} {source patch conversion : Bytes} {canonical required v : Version}

/-- The first listed version of another revision than `required` that has the program of the
dump. -/
def related? (family : Family) (source : Bytes) (required : Version) : Option Version :=
  (family.versions.map Prod.snd).find? fun v =>
    v.revision ≠ required.revision && v.programChecksum = programChecksum source

theorem of_related? (found : related? family source required = some v) :
    v ∈ family.versions.map Prod.snd ∧ v.revision ≠ required.revision ∧
      v.programChecksum = programChecksum source := by
  have fits := List.find?_some found
  simp only [decide_not, Bool.and_eq_true, Bool.not_eq_true', decide_eq_false_iff_not,
    decide_eq_true_eq] at fits
  exact ⟨List.mem_of_find?_eq_some found, fits⟩

theorem exists_related? (listed : v ∈ family.versions.map Prod.snd)
    (revision : v.revision ≠ required.revision)
    (program : v.programChecksum = programChecksum source) :
    ∃ current, related? family source required = some current := by
  apply Option.isSome_iff_exists.mp
  apply List.find?_isSome.mpr
  exact ⟨v, listed, by simp [revision, program]⟩

theorem towards_of_ne (program : programChecksum source ≠ required.programChecksum) :
    towards family source required =
      match related? family source required with
      | .none => .none
      | some current =>
        match family.conversion current.revision required.revision with
        | .none => .unavailable current required
        | some conversion =>
          match family.canonical current.revision with
          | .none => .none
          | some canonical => .convert current canonical required conversion :=
  if_neg program

/-- The table helps only if it lists the dump that the patch names. -/
theorem find_eq_iff {repair : Repair} (helps : repair ≠ .none) :
    find family source patch = repair ↔
      ∃ required, family.Requires patch required ∧ towards family source required = repair := by
  simp only [Family.requires_iff]
  unfold find
  cases (Footer.expectedSource patch).toOption.bind family.lookup with
  | none => simpa using helps.symm
  | some required => simp

theorem towards_eq_reheader_iff :
    towards family source required = .reheader v ↔
      v = required ∧ programChecksum source = required.programChecksum := by
  unfold towards
  dsimp only
  split
  next same =>
    simp only [reheader.injEq, same, and_true, eq_comm]
  next other =>
    simp only [other, and_false, iff_false]
    split
    · exact nofun
    · split
      · exact nofun
      · split <;> exact nofun

theorem towards_eq_convert_iff :
    (∃ current, towards family source required = .convert current canonical v conversion) ↔
      v = required ∧ family.Converts source canonical required conversion := by
  constructor
  · rintro ⟨current, found⟩
    have program : programChecksum source ≠ required.programChecksum := by
      intro same
      rw [towards_eq_reheader_iff.mpr ⟨rfl, same⟩] at found
      cases found
    rw [towards_of_ne program] at found
    split at found
    · cases found
    next related =>
      split at found
      · cases found
      next available =>
        split at found
        · cases found
        next first =>
          cases found
          obtain ⟨listed, revision, same⟩ := of_related? related
          obtain ⟨-, current⟩ := Family.of_canonical first
          rw [← current] at revision available first
          exact ⟨rfl, program, ⟨_, listed, current.symm, same⟩, revision, first, available⟩
  · rintro ⟨rfl, converts⟩
    obtain ⟨other, listed, revision, same⟩ := converts.listed
    obtain ⟨current, related⟩ := exists_related? listed (revision ▸ converts.revision) same
    -- the one found need not be the one listed, but it is of the same revision
    have revision : current.revision = canonical.revision :=
      Revision.eq_of_ne (of_related? related).2.1 converts.revision
    refine ⟨current, ?_⟩
    simp only [towards_of_ne converts.program, related, revision, converts.available,
      converts.first]

theorem find_eq_reheader_iff :
    find family source patch = .reheader required ↔
      family.Requires patch required ∧ programChecksum source = required.programChecksum := by
  rw [find_eq_iff (by simp)]
  simp only [towards_eq_reheader_iff]
  constructor
  · rintro ⟨_, requires, rfl, program⟩
    exact ⟨requires, program⟩
  · rintro ⟨requires, program⟩
    exact ⟨required, requires, rfl, program⟩

theorem find_eq_convert_iff :
    (∃ current, find family source patch = .convert current canonical required conversion) ↔
      family.Requires patch required ∧ family.Converts source canonical required conversion := by
  constructor
  · rintro ⟨current, found⟩
    obtain ⟨_, requires, towards⟩ := (find_eq_iff (by simp)).mp found
    obtain ⟨rfl, converts⟩ := towards_eq_convert_iff.mp ⟨current, towards⟩
    exact ⟨requires, converts⟩
  · rintro ⟨requires, converts⟩
    obtain ⟨current, towards⟩ := towards_eq_convert_iff.mpr ⟨rfl, converts⟩
    exact ⟨current, (find_eq_iff (by simp)).mpr ⟨required, requires, towards⟩⟩

end Repair

end BeatPatch
