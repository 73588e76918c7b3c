import BeatPatch.Proofs.Overwriting
import Mathlib.Data.List.DropRight

/-!
# File names

A path ends in the last part that leads anywhere (`Path.EndsIn`), if there is one. Unless that is
`..` it is the file name, so that a path has a file name exactly if the last of its steps is one by
name (`Path.fileName?_eq_none_iff`). The parent of a path describes all steps but the last
(`Path.EndsIn.steps_parent`). A file name is its stem, or its stem with a dot and an extension that
holds no dot (`PathPart.splitExtension_cases`).
-/

namespace BeatPatch

namespace PathPart

variable {name before after : PathPart}

theorem isIdle_iff : name.isIdle = true ↔ name = [] ∨ name = here := by
  simp [isIdle]

theorem isIdle_eq_false_iff : name.isIdle = false ↔ name ≠ [] ∧ name ≠ here := by
  simp [isIdle]

theorem splitLastDot_eq_none_iff : splitLastDot name = none ↔ '.' ∉ name := by
  induction name with
  | nil => simp [splitLastDot]
  | cons c rest ih =>
    rw [splitLastDot, List.mem_cons, not_or, ← ih]
    cases splitLastDot rest with
    | some found => simp
    | none => by_cases dot : c = '.' <;> simp [dot, eq_comm]

theorem splitLastDot_append (dotless : '.' ∉ after) :
    splitLastDot (before ++ '.' :: after) = some (before, after) := by
  induction before with
  | nil => rw [List.nil_append, splitLastDot, splitLastDot_eq_none_iff.mpr dotless]; rfl
  | cons c before ih => rw [List.cons_append, splitLastDot, ih]

theorem splitLastDot_eq_some_iff :
    splitLastDot name = some (before, after) ↔ name = before ++ '.' :: after ∧ '.' ∉ after := by
  refine ⟨fun found => ?_, fun ⟨whole, dotless⟩ => whole ▸ splitLastDot_append dotless⟩
  induction name generalizing before with
  | nil => cases found
  | cons c rest ih =>
    rw [splitLastDot] at found
    split at found
    · rename_i front back later
      cases found
      obtain ⟨whole, dotless⟩ := ih later
      exact ⟨congrArg (c :: ·) whole, dotless⟩
    · rename_i last
      split at found
      · rename_i dot
        cases found
        exact ⟨congrArg (· :: after) dot, splitLastDot_eq_none_iff.mp last⟩
      · cases found

/-- The stem of a file name. -/
def stem (name : PathPart) : PathPart := (splitExtension name).1

/-- A stem with an extension behind it, unless that is empty. -/
def underExtension (stem extension : PathPart) : PathPart :=
  if extension = [] then stem else stem ++ '.' :: extension

theorem splitExtension_append {stem extension : PathPart} (named : stem ≠ [])
    (dotless : '.' ∉ extension) :
    splitExtension (stem ++ '.' :: extension) = (stem, some extension) := by
  rw [splitExtension, splitLastDot_append dotless]
  exact if_neg named

/-- A file name has no extension, or it is a stem, a dot and the extension. -/
theorem splitExtension_cases (name : PathPart) :
    splitExtension name = (name, none) ∨ ∃ stem extension, name = stem ++ '.' :: extension ∧
      stem ≠ [] ∧ '.' ∉ extension ∧ splitExtension name = (stem, some extension) := by
  cases found : splitLastDot name with
  | none => exact .inl (by rw [splitExtension, found])
  | some parts =>
    obtain ⟨before, after⟩ := parts
    obtain ⟨whole, dotless⟩ := splitLastDot_eq_some_iff.mp found
    by_cases hidden : before = []
    · exact .inl (by rw [splitExtension, found]; exact if_pos hidden)
    · exact .inr ⟨before, after, whole, hidden, dotless,
        whole ▸ splitExtension_append hidden dotless⟩

theorem isIdle_append_dot {stem extension : PathPart} (named : stem ≠ []) :
    (stem ++ '.' :: extension).isIdle = false := by
  obtain ⟨c, stem, rfl⟩ := List.exists_cons_of_ne_nil named
  exact isIdle_eq_false_iff.mpr ⟨by simp, by simp [here]⟩

/-- A stem of its own is mistaken for `..` in one way only. -/
theorem append_dot_eq_parent_iff {stem extension : PathPart} (named : stem ≠ []) :
    stem ++ '.' :: extension = parent ↔ stem = here ∧ extension = [] := by
  obtain ⟨c, stem, rfl⟩ := List.exists_cons_of_ne_nil named
  cases stem with
  | nil => simp [parent, here]
  | cons next stem => simp [parent, here]

theorem stem_isPrefix (name : PathPart) : name.stem <+: name := by
  rcases splitExtension_cases name with whole | ⟨stem, extension, rfl, -, -, split⟩
  · exact ⟨[], by rw [PathPart.stem, whole, List.append_nil]⟩
  · rw [PathPart.stem, split]
    exact List.prefix_append ..

theorem stem_ne_nil (named : name ≠ []) : name.stem ≠ [] := by
  rcases splitExtension_cases name with whole | ⟨stem, extension, -, stemmed, -, split⟩
  · rwa [PathPart.stem, whole]
  · rwa [PathPart.stem, split]

theorem underExtension_nil (stem : PathPart) : stem.underExtension [] = stem := if_pos rfl

theorem splitExtension_underExtension {stem extension : PathPart} (named : stem ≠ [])
    (dotless : '.' ∉ extension) (extended : extension ≠ []) :
    splitExtension (stem.underExtension extension) = (stem, some extension) := by
  rw [underExtension, if_neg extended, splitExtension_append named dotless]

theorem isIdle_underExtension {stem : PathPart} (leads : stem.isIdle = false)
    (extension : PathPart) : (stem.underExtension extension).isIdle = false := by
  unfold underExtension
  split
  · exact leads
  · exact isIdle_append_dot (isIdle_eq_false_iff.mp leads).1

theorem underExtension_ne_parent {stem : PathPart} (leads : stem.isIdle = false)
    (forward : stem ≠ parent) (extension : PathPart) : stem.underExtension extension ≠ parent := by
  obtain ⟨named, plain⟩ := isIdle_eq_false_iff.mp leads
  unfold underExtension
  split
  · exact forward
  · exact fun up => plain ((append_dot_eq_parent_iff named).mp up).1

end PathPart

namespace Path

variable {p : Path} {front behind : List PathPart} {last name : PathPart}

/-- The stem of the file name. -/
def stem? (p : Path) : Option PathPart := p.fileName?.map PathPart.stem

/-- The directory that these parts lead to; what leads nowhere is kept at the start only. -/
def directory (parts : List PathPart) : Path :=
  if (⟨parts⟩ : Path).leading ≠ [] then ⟨(⟨parts⟩ : Path).leading⟩
  else if parts.head? = some [] then ⟨[[], []]⟩
  else ⟨[parts.headD []]⟩

/-- The path to the directory in which the last step is made, if there is a step and it is not to
the root. -/
def parent? (p : Path) : Option Path :=
  if p.leading = [] then
    if p.parts.head? = some PathPart.here then some (directory []) else none
  else some (directory p.leading.dropLast)

/-! ## The last part that leads anywhere -/

/-- The path ends in `last`, behind which nothing leads anywhere. -/
structure EndsIn (p : Path) (front : List PathPart) (last : PathPart) : Prop where
  leads : last.isIdle = false
  parts : ∃ behind, (∀ part ∈ behind, part.isIdle = true) ∧ p.parts = front ++ last :: behind

theorem leading_eq_nil_iff : p.leading = [] ↔ ∀ part ∈ p.parts, part.isIdle = true :=
  List.rdropWhile_eq_nil_iff

theorem EndsIn.leading_eq (ends : p.EndsIn front last) : p.leading = front ++ [last] := by
  obtain ⟨behind, idle, parts⟩ := ends.parts
  rw [leading, parts, List.reverse_append, List.reverse_cons, List.append_assoc,
    List.dropWhile_append_of_pos (by simpa using idle), List.singleton_append,
    List.dropWhile_cons_of_neg (by simp [ends.leads])]
  simp

/-- What leads nowhere is dropped from the end only. -/
theorem parts_eq_leading_append (p : Path) :
    ∃ behind, (∀ part ∈ behind, part.isIdle = true) ∧ p.parts = p.leading ++ behind :=
  ⟨p.parts.rtakeWhile PathPart.isIdle, fun _ => List.mem_rtakeWhile_imp,
    List.rdropWhile_append_rtakeWhile.symm⟩

/-- Some part of a path leads somewhere, and the path ends in the last such part, or none does. -/
theorem leading_eq_nil_or_endsIn (p : Path) :
    p.leading = [] ∨ ∃ front last, p.EndsIn front last := by
  by_cases idle : p.leading = []
  · exact .inl idle
  · obtain ⟨behind, unmoving, parts⟩ := p.parts_eq_leading_append
    have leads : ¬ (p.leading.getLast idle).isIdle := List.rdropWhile_last_not _ _ idle
    refine .inr ⟨p.leading.dropLast, p.leading.getLast idle, Bool.eq_false_iff.mpr leads, behind,
      unmoving, ?_⟩
    rw [List.append_cons, List.dropLast_append_getLast, ← parts]

theorem endsIn_append (leads : last.isIdle = false) :
    (⟨front ++ [last]⟩ : Path).EndsIn front last :=
  ⟨leads, [], nofun, rfl⟩

section

variable (ends : p.EndsIn front name)
include ends

theorem EndsIn.name_ne_nil : name ≠ [] := (PathPart.isIdle_eq_false_iff.mp ends.leads).1

theorem EndsIn.parent?_eq : p.parent? = some (directory front) := by
  rw [parent?, ends.leading_eq, if_neg (by simp), List.dropLast_concat]

/-- The last part that leads anywhere is the file name, unless it is `..`. -/
theorem EndsIn.fileName?_eq :
    p.fileName? = if name = PathPart.parent then none else some name := by
  rw [fileName?, ends.leading_eq, List.getLast?_concat]
  by_cases up : name = PathPart.parent <;> simp [up]

variable (forward : name ≠ PathPart.parent)
include forward

theorem EndsIn.fileName?_eq_some : p.fileName? = some name := by
  rw [ends.fileName?_eq, if_neg forward]

theorem EndsIn.stem?_eq : p.stem? = some name.stem := by
  rw [stem?, ends.fileName?_eq_some forward]
  rfl

theorem EndsIn.extension?_eq : p.extension? = (PathPart.splitExtension name).2 := by
  rw [extension?, ends.fileName?_eq_some forward]
  rfl

/-- The extension is put behind the stem, and what stands behind the file name is dropped. -/
theorem EndsIn.setExtension_eq (extension : PathPart) :
    p.setExtension extension = ⟨front ++ [name.stem.underExtension extension]⟩ := by
  simp only [setExtension, ends.fileName?_eq_some forward, ends.leading_eq, List.dropLast_concat]
  rfl

end

theorem exists_endsIn_of_fileName? (found : p.fileName? = some name) :
    name ≠ PathPart.parent ∧ ∃ front, p.EndsIn front name := by
  rcases p.leading_eq_nil_or_endsIn with idle | ⟨front, last, ends⟩
  · rw [fileName?, idle] at found
    cases found
  · rw [ends.fileName?_eq] at found
    split at found
    · cases found
    · rename_i forward
      cases found
      exact ⟨forward, front, ends⟩

/-! ## The last step -/

theorem stepsOf_append (front behind : List PathPart) :
    stepsOf (front ++ behind) = stepsOf front ++ stepsOf behind := by
  rw [stepsOf, List.filter_append, List.map_append]
  rfl

theorem stepsOf_of_idle (idle : ∀ part ∈ behind, part.isIdle = true) : stepsOf behind = [] := by
  rw [stepsOf, List.filter_eq_nil_iff.mpr (by simpa using idle)]
  rfl

theorem stepsOf_leading (p : Path) : stepsOf p.leading = stepsOf p.parts := by
  obtain ⟨behind, idle, parts⟩ := p.parts_eq_leading_append
  rw [parts, stepsOf_append, stepsOf_of_idle idle, List.append_nil]

theorem opening_cons (part : PathPart) (rest : List PathPart) :
    (⟨part :: rest⟩ : Path).opening =
      if part = [] ∧ rest ≠ [] then [.root] else if part = PathPart.here then [.here] else [] := by
  unfold opening
  split
  · rename_i absolute
    cases absolute
    rfl
  · rename_i here
    cases here
    rfl
  · rename_i relative plain
    rw [if_neg, if_neg]
    · rintro rfl
      exact plain rest rfl
    · rintro ⟨rfl, more⟩
      obtain ⟨next, rest, rfl⟩ := List.exists_cons_of_ne_nil more
      exact relative next rest rfl

theorem EndsIn.steps_eq (ends : p.EndsIn front last) :
    p.steps = p.opening ++ stepsOf front ++
      [if last = PathPart.parent then .up else .name last] := by
  rw [Path.steps_eq, ← stepsOf_leading, ends.leading_eq, stepsOf_append, List.append_assoc]
  simp [stepsOf, ends.leads]

theorem stepsOf_directory (front : List PathPart) :
    stepsOf (directory front).parts = stepsOf front := by
  unfold directory
  split
  · exact stepsOf_leading ⟨front⟩
  · rename_i idle
    have idle := leading_eq_nil_iff.mp (not_not.mp idle)
    rw [stepsOf_of_idle idle]
    split
    · rfl
    · cases front with
      | nil => rfl
      | cons part rest => exact stepsOf_of_idle (by simpa using idle part List.mem_cons_self)

/-- A directory opens like the path to anything in it. -/
theorem opening_directory (leads : last.isIdle = false) :
    (directory front).opening = (⟨front ++ last :: behind⟩ : Path).opening := by
  have busy := PathPart.isIdle_eq_false_iff.mp leads
  cases front with
  | nil =>
    rw [List.nil_append, opening_cons, if_neg fun absolute => busy.1 absolute.1, if_neg busy.2]
    rfl
  | cons part rest =>
    rw [List.cons_append, opening_cons]
    rcases leading_eq_nil_or_endsIn ⟨part :: rest⟩ with idle | ⟨front, last, ends⟩
    · rw [directory, if_neg (not_not.mpr idle)]
      have idle := leading_eq_nil_iff.mp idle part List.mem_cons_self
      by_cases absolute : part = []
      · simp [absolute, opening_cons]
      · simp [absolute, opening_cons]
    · rw [directory, ends.leading_eq, if_pos (by simp)]
      obtain ⟨behind, -, parts⟩ := ends.parts
      cases front with
      | nil =>
        cases parts
        simp [opening_cons, ends.name_ne_nil]
      | cons first front =>
        cases parts
        simp [opening_cons]

theorem steps_of_idle (idle : p.leading = []) : p.steps = p.opening := by
  rw [steps_eq, ← stepsOf_leading, idle]
  exact List.append_nil _

/-- The parent of a path describes its steps up to the last. -/
theorem steps_of_parent? {above : Path} (found : p.parent? = some above) :
    above.steps = p.steps.dropLast := by
  rcases p.leading_eq_nil_or_endsIn with idle | ⟨front, last, ends⟩
  · rw [parent?, if_pos idle] at found
    split at found
    · rename_i starts
      cases found
      obtain ⟨rest, parts⟩ := List.head?_eq_some_iff.mp starts
      have opening : p.opening = [.here] := by rw [Path.opening, parts]; rfl
      rw [steps_of_idle idle, opening]
      rfl
    · cases found
  · obtain ⟨behind, -, parts⟩ := ends.parts
    rw [ends.parent?_eq] at found
    cases found
    rw [ends.steps_eq, List.dropLast_concat, steps_eq, stepsOf_directory,
      opening_directory ends.leads, ← parts]

/-- A path has no file name if it is empty, the root, `.`, or ends in `..`. -/
theorem fileName?_eq_none_iff :
    p.fileName? = none ↔ p.steps = [] ∨ p.steps = [.root] ∨ p.steps = [.here] ∨
      p.steps.getLast? = some .up := by
  rcases p.leading_eq_nil_or_endsIn with idle | ⟨front, last, ends⟩
  · rw [fileName?, idle, steps_of_idle idle]
    exact iff_of_true rfl (p.opening_cases.imp_right (·.imp_right .inl))
  · have final : p.steps.getLast? = some (if last = PathPart.parent then .up else .name last) := by
      rw [ends.steps_eq, List.getLast?_concat]
    rw [ends.fileName?_eq]
    by_cases up : last = PathPart.parent
    · rw [if_pos up] at final
      exact iff_of_true (if_pos up) (.inr (.inr (.inr final)))
    · rw [if_neg up] at final
      rw [if_neg up]
      refine iff_of_false nofun ?_
      rintro (steps | steps | steps | steps) <;> rw [steps] at final <;> cases final

end Path

end BeatPatch
