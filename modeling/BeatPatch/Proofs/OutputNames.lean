import BeatPatch.Proofs.FileNames

/-!
# Names of outputs

A new extension is put on a path in two steps: the old extension is cut off the end of the text,
though slashes and dots may stand behind it, and what is left is read as a path again. What the cut
leaves of the file name still has its stem (`Path.IsSpelt.cut_eq`), so that only the stem `.` can be
mistaken, for `..` (`Path.EndsIn.withExtension_eq`). The output of a patch is therefore found in its
directory, under its stem and the extension of the dump (`CommandLine.defaultOutput_eq`).
-/

namespace BeatPatch

namespace Path

variable {p : Path} {front behind parts : List PathPart} {name stem extension old : PathPart}

/-! ## Texts -/

theorem splitSlashes_eq (text : List Char) : splitSlashes text = text.splitOn '/' := by
  induction text with
  | nil => rfl
  | cons c rest ih =>
    rw [splitSlashes, List.splitOn_cons_eq_if_modifyHead, ih]
    by_cases slash : c = '/'
    · rw [if_pos slash, if_pos (beq_iff_eq.mpr slash)]
    · rw [if_neg slash, if_neg (mt beq_iff_eq.mp slash)]
      obtain ⟨part, parts, split⟩ := List.exists_cons_of_ne_nil (List.splitOn_ne_nil '/' rest)
      rw [split]
      rfl

theorem joinSlashes_eq (parts : List PathPart) : joinSlashes parts = ['/'].intercalate parts := by
  induction parts with
  | nil => rfl
  | cons part rest ih =>
    cases rest with
    | nil => simp [joinSlashes]
    | cons next rest => simp [joinSlashes, ih]

/-- The parts are those of a text: there is one, and no slash is in any. -/
structure IsSpelt (p : Path) : Prop where
  nonempty : p.parts ≠ []
  slashless : ∀ part ∈ p.parts, '/' ∉ part

theorem slash_notMem_of_mem_splitSlashes {text : List Char} {part : PathPart}
    (mem : part ∈ splitSlashes text) : '/' ∉ part := by
  fun_induction splitSlashes text generalizing part with
  | case1 =>
    cases List.mem_singleton.mp mem
    exact List.not_mem_nil
  | case2 rest ih =>
    rcases List.mem_cons.mp mem with rfl | mem
    · exact List.not_mem_nil
    · exact ih mem
  | case3 c rest plain first parts split ih =>
    rw [split] at ih
    rcases List.mem_cons.mp mem with rfl | mem
    · exact List.not_mem_cons_of_ne_of_not_mem (Ne.symm plain) (ih List.mem_cons_self)
    · exact ih (List.mem_cons_of_mem _ mem)
  | case4 c rest plain =>
    cases List.mem_singleton.mp mem
    exact List.not_mem_cons_of_ne_of_not_mem (Ne.symm plain) List.not_mem_nil

theorem isSpelt_ofChars (text : List Char) : (ofChars text).IsSpelt where
  nonempty := by
    rw [ofChars, splitSlashes_eq]
    exact List.splitOn_ne_nil '/' text
  slashless := fun _ => slash_notMem_of_mem_splitSlashes

theorem IsSpelt.ofChars_joinSlashes (spelt : (⟨parts⟩ : Path).IsSpelt) :
    ofChars (joinSlashes parts) = ⟨parts⟩ := by
  rw [ofChars, splitSlashes_eq, joinSlashes_eq,
    List.splitOn_intercalate '/' spelt.slashless spelt.nonempty]

theorem isSpelt_append_cons (before : ∀ part ∈ front, '/' ∉ part) (named : '/' ∉ name)
    (idle : ∀ part ∈ behind, part.isIdle = true) : (⟨front ++ name :: behind⟩ : Path).IsSpelt := by
  refine ⟨by simp, List.forall_mem_append.mpr ⟨before, List.forall_mem_cons.mpr ⟨named, ?_⟩⟩⟩
  intro part mem
  rcases PathPart.isIdle_iff.mp (idle part mem) with rfl | rfl <;> simp [PathPart.here]

theorem IsSpelt.slashless_of_parts (spelt : p.IsSpelt) (parts : p.parts = front ++ name :: behind) :
    (∀ part ∈ front, '/' ∉ part) ∧ '/' ∉ name := by
  have slashless := spelt.slashless
  rw [parts, List.forall_mem_append, List.forall_mem_cons] at slashless
  exact ⟨slashless.1, slashless.2.1⟩

theorem EndsIn.slashless (ends : p.EndsIn front name) (spelt : p.IsSpelt) :
    (∀ part ∈ front, '/' ∉ part) ∧ '/' ∉ name := by
  obtain ⟨_, -, parts⟩ := ends.parts
  exact spelt.slashless_of_parts parts

/-- The text of a path around one of its parts. -/
theorem joinSlashes_append_cons (front : List PathPart) (part : PathPart)
    (behind : List PathPart) :
    joinSlashes (front ++ part :: behind) =
      front.flatMap (· ++ ['/']) ++ (part ++ behind.flatMap ('/' :: ·)) := by
  induction front with
  | nil =>
    rw [List.nil_append, List.flatMap_nil, List.nil_append]
    induction behind generalizing part with
    | nil => simp [joinSlashes]
    | cons next behind ih => rw [joinSlashes, ih, List.flatMap_cons, List.cons_append]; simp
  | cons first front ih =>
    rw [List.cons_append, joinSlashes, ih, List.flatMap_cons]
    · simp
    · simp

/-! ## Cutting off an extension -/

theorem isIdle_take {part : PathPart} (idle : part.isIdle = true) (n : Nat) :
    PathPart.isIdle (part.take n) = true := by
  rcases PathPart.isIdle_iff.mp idle with rfl | rfl
  · rw [List.take_nil]
    rfl
  · cases n with
    | zero => rfl
    | succ n => rw [PathPart.here, List.take_succ_cons, List.take_nil]; rfl

/-- What is left of parts that lead nowhere leads nowhere. -/
theorem exists_take_flatMap (idle : ∀ part ∈ behind, part.isIdle = true) (n : Nat) :
    ∃ rest : List PathPart, (∀ part ∈ rest, part.isIdle = true) ∧
      (behind.flatMap ('/' :: ·)).take n = rest.flatMap ('/' :: ·) := by
  induction behind generalizing n with
  | nil => exact ⟨[], nofun, List.take_nil⟩
  | cons part behind ih =>
    cases n with
    | zero => exact ⟨[], nofun, rfl⟩
    | succ n =>
      obtain ⟨rest, unmoving, left⟩ :=
        ih (fun part mem => idle part (List.mem_cons_of_mem _ mem)) (n - part.length)
      refine ⟨part.take n :: rest, List.forall_mem_cons.mpr ⟨?_, unmoving⟩, ?_⟩
      · exact isIdle_take (idle part List.mem_cons_self) n
      · rw [List.flatMap_cons, List.flatMap_cons, List.cons_append, List.take_succ_cons,
          List.take_append, left, List.cons_append]

theorem take_length_sub (start old tail : List Char) :
    (start ++ (old ++ tail)).take ((start ++ (old ++ tail)).length - old.length) =
      start ++ (old.take tail.length ++ tail.take (tail.length - old.length)) := by
  have length : (start ++ (old ++ tail)).length - old.length = start.length + tail.length := by
    simp only [List.length_append]
    omega
  rw [length, List.take_length_add_append, List.take_append]

/-- As many characters as the extension has are cut off the end of the text. If slashes and dots
stand behind the file name, some of the extension is left; the stem always is. -/
theorem IsSpelt.cut_eq (spelt : p.IsSpelt)
    (parts : p.parts = front ++ (stem ++ '.' :: old) :: behind)
    (idle : ∀ part ∈ behind, part.isIdle = true) :
    ∃ kept rest, ofChars (p.chars.take (p.chars.length - old.length)) =
        ⟨front ++ (stem ++ '.' :: kept) :: rest⟩ ∧
      kept <+: old ∧ (∀ part ∈ rest, part.isIdle = true) ∧
      (behind = [] → kept = [] ∧ rest = []) ∧ (behind ≠ [] → old ≠ [] → kept ≠ []) := by
  have chars : p.chars = front.flatMap (· ++ ['/']) ++ (stem ++ ['.']) ++
      (old ++ behind.flatMap ('/' :: ·)) := by
    rw [Path.chars, parts, joinSlashes_append_cons]
    simp
  generalize tailed : behind.flatMap ('/' :: ·) = tail at chars
  obtain ⟨rest, unmoving, left⟩ := exists_take_flatMap idle (tail.length - old.length)
  rw [tailed] at left
  have within : old.take tail.length <+: old := List.take_prefix ..
  have cutSpelt : (⟨front ++ (stem ++ '.' :: old.take tail.length) :: rest⟩ : Path).IsSpelt := by
    obtain ⟨before, named⟩ := spelt.slashless_of_parts parts
    have shorter : stem ++ '.' :: old.take tail.length <+: stem ++ '.' :: old :=
      (List.prefix_append_right_inj _).mpr (List.cons_prefix_cons.mpr ⟨rfl, within⟩)
    exact isSpelt_append_cons before (fun slash => named (shorter.subset slash)) unmoving
  refine ⟨old.take tail.length, rest, ?_, within, unmoving, ?_, ?_⟩
  · rw [chars, take_length_sub, left, ← cutSpelt.ofChars_joinSlashes, joinSlashes_append_cons]
    simp
  · rintro rfl
    cases tailed
    exact ⟨List.take_zero, by cases rest with | nil => rfl | cons => simp at left⟩
  · intro more extended none
    obtain ⟨part, behind, rfl⟩ := List.exists_cons_of_ne_nil more
    rw [← tailed] at none
    simp [extended] at none

/-- The new extension is put behind the stem of the file name. If the path ends in a file name with
the stem `.`, only `..` is left of that, which is no file name. -/
theorem EndsIn.withExtension_eq (ends : p.EndsIn front name) (spelt : p.IsSpelt)
    (forward : name ≠ PathPart.parent) (extension : PathPart) :
    p.withExtension extension =
      if name.stem = PathPart.here ∧ p.parts = front ++ [name] then ⟨front ++ [PathPart.parent]⟩
      else ⟨front ++ [name.stem.underExtension extension]⟩ := by
  rcases PathPart.splitExtension_cases name with whole | ⟨stem, old, rfl, named, dotless, split⟩
  · have stemmed : name.stem = name := congrArg Prod.fst whole
    rw [withExtension, ends.extension?_eq forward, whole, if_neg]
    · exact ends.setExtension_eq forward extension
    · rw [stemmed]
      exact fun h => (PathPart.isIdle_eq_false_iff.mp ends.leads).2 h.1
  · obtain ⟨behind, idle, parts⟩ := ends.parts
    obtain ⟨kept, rest, cut, within, unmoving, bare, more⟩ := spelt.cut_eq parts idle
    have stemmed : PathPart.stem (stem ++ '.' :: old) = stem := congrArg Prod.fst split
    have keptDotless : '.' ∉ kept := fun dot => dotless (within.subset dot)
    have restemmed : PathPart.stem (stem ++ '.' :: kept) = stem :=
      congrArg Prod.fst (PathPart.splitExtension_append named keptDotless)
    have cutEnds : (⟨front ++ (stem ++ '.' :: kept) :: rest⟩ : Path).EndsIn front
        (stem ++ '.' :: kept) := ⟨PathPart.isIdle_append_dot named, rest, unmoving, rfl⟩
    rw [withExtension, ends.extension?_eq forward, split, stemmed]
    dsimp only
    rw [cut]
    have forward : ¬ (stem = PathPart.here ∧ old = []) :=
      mt (PathPart.append_dot_eq_parent_iff named).mpr forward
    have isBare : p.parts = front ++ [stem ++ '.' :: old] ↔ behind = [] := by
      rw [parts]
      simp
    by_cases up : stem ++ '.' :: kept = PathPart.parent
    · obtain ⟨rfl, rfl⟩ := (PathPart.append_dot_eq_parent_iff named).mp up
      have none : behind = [] := not_not.mp fun some => more some (fun h => forward ⟨rfl, h⟩) rfl
      obtain ⟨-, rfl⟩ := bare none
      rw [if_pos ⟨rfl, isBare.mpr none⟩, setExtension, cutEnds.fileName?_eq, if_pos up, up]
    · rw [cutEnds.setExtension_eq up, restemmed, if_neg]
      rintro ⟨rfl, none⟩
      exact up ((PathPart.append_dot_eq_parent_iff named).mpr ⟨rfl, (bare (isBare.mp none)).1⟩)

theorem withExtension_of_fileName?_eq_none (unnamed : p.fileName? = none) (extension : PathPart) :
    p.withExtension extension = p := by
  rw [withExtension, extension?, unnamed]
  dsimp only [Option.bind_none]
  rw [setExtension, unnamed]

/-- An extension holds neither slash nor dot. -/
theorem IsSpelt.extension?_chars (spelt : p.IsSpelt) (found : p.extension? = some extension) :
    '/' ∉ extension ∧ '.' ∉ extension := by
  obtain ⟨name, named, found⟩ := Option.bind_eq_some_iff.mp found
  obtain ⟨-, front, ends⟩ := exists_endsIn_of_fileName? named
  rcases PathPart.splitExtension_cases name with whole | ⟨stem, old, rfl, -, dotless, split⟩
  · rw [whole] at found
    cases found
  · rw [split] at found
    cases found
    exact ⟨fun slash => (ends.slashless spelt).2 (by simp [slash]), dotless⟩

theorem EndsIn.isSpelt_underExtension (ends : p.EndsIn front name) (spelt : p.IsSpelt)
    (slashless : '/' ∉ extension) :
    (⟨front ++ [name.stem.underExtension extension]⟩ : Path).IsSpelt := by
  obtain ⟨before, named⟩ := ends.slashless spelt
  have stemmed : '/' ∉ name.stem := fun slash => named (name.stem_isPrefix.subset slash)
  refine isSpelt_append_cons before ?_ nofun
  rw [PathPart.underExtension]
  split
  · exact stemmed
  · simp [stemmed, slashless]

end Path

namespace CommandLine

variable {source patch : Path} {front : List PathPart} {name extension : PathPart}

/-- The output is named by the stem of the patch, in the directory of the patch. -/
theorem defaultOutput_eq (ends : patch.EndsIn front name) (spelt : patch.IsSpelt)
    (forward : name ≠ PathPart.parent) (plain : name.stem ≠ PathPart.here) :
    defaultOutput source patch =
      ⟨front ++ [name.stem.underExtension (source.extension?.getD [])]⟩ := by
  rw [defaultOutput, ends.withExtension_eq spelt forward, if_neg fun h => plain h.1]

/-- With a stem that is `.` or `..` nothing may be left of the file name. -/
example : defaultOutput (.ofString "game.nes") (.ofString "hacks/..bps") = .ofString "hacks/.." ∧
    defaultOutput (.ofString "game") (.ofString "hacks/...bps") = .ofString "hacks/.." := by
  decide +kernel

/-- The output is in the directory of the patch. Under an extension of the dump it has the stem of
the patch, and the output of that output is itself; without one the stem is its whole name. A patch
has no file name if it is empty, the root, `.`, or ends in `..`; it is then its own output. -/
theorem defaultOutput_named {sourceText patchText : String} {source patch output : Path}
    (sourceRead : source = .ofString sourceText) (patchRead : patch = .ofString patchText)
    (named : output = defaultOutput source patch) :
    (∀ stem, patch.stem? = some stem → stem ≠ PathPart.here → stem ≠ PathPart.parent →
      (∃ directory, patch.parent? = some directory ∧ output.parent? = some directory ∧
        directory.steps = patch.steps.dropLast) ∧
      (∀ extension, source.extension? = some extension → extension ≠ [] →
        output.stem? = some stem ∧ output.extension? = some extension ∧
          defaultOutput source output = output) ∧
      (source.extension? = none ∨ source.extension? = some [] → output.fileName? = some stem)) ∧
    (patch.fileName? = none ↔ patch.steps = [] ∨ patch.steps = [.root] ∨ patch.steps = [.here] ∨
      patch.steps.getLast? = some .up) ∧
    (patch.fileName? = none → output = patch) := by
  refine ⟨fun stem found plain forward => ?_, Path.fileName?_eq_none_iff,
    fun unnamed => named.trans (Path.withExtension_of_fileName?_eq_none unnamed _)⟩
  have sourceSpelt : source.IsSpelt := sourceRead ▸ Path.isSpelt_ofChars _
  have spelt : patch.IsSpelt := patchRead ▸ Path.isSpelt_ofChars _
  obtain ⟨name, fileName, rfl⟩ := Option.map_eq_some_iff.mp found
  obtain ⟨nameForward, front, ends⟩ := Path.exists_endsIn_of_fileName? fileName
  have leads : name.stem.isIdle = false :=
    PathPart.isIdle_eq_false_iff.mpr ⟨PathPart.stem_ne_nil ends.name_ne_nil, plain⟩
  have outputEq : output = _ := named.trans (defaultOutput_eq ends spelt nameForward plain)
  have outputEnds := outputEq ▸ Path.endsIn_append (PathPart.isIdle_underExtension leads _)
  have outputForward := PathPart.underExtension_ne_parent leads forward (source.extension?.getD [])
  refine ⟨⟨Path.directory front, ends.parent?_eq, outputEnds.parent?_eq,
      Path.steps_of_parent? ends.parent?_eq⟩,
    fun extension found extended => ?_, fun unextended => ?_⟩
  · obtain ⟨slashless, dotless⟩ := sourceSpelt.extension?_chars found
    rw [found, Option.getD_some] at outputEq outputEnds outputForward
    have split := PathPart.splitExtension_underExtension
      (PathPart.stem_ne_nil ends.name_ne_nil) dotless extended
    have stemmed : (name.stem.underExtension extension).stem = name.stem := by
      rw [PathPart.stem, split]
    refine ⟨?_, ?_, ?_⟩
    · rw [outputEnds.stem?_eq outputForward, stemmed]
    · rw [outputEnds.extension?_eq outputForward, split]
    · have outputSpelt : output.IsSpelt := outputEq ▸ ends.isSpelt_underExtension spelt slashless
      rw [defaultOutput_eq outputEnds outputSpelt outputForward (by rwa [stemmed]), stemmed, found,
        Option.getD_some, outputEq]
  · have bare : source.extension?.getD [] = [] := by
      rcases unextended with none | empty
      · rw [none, Option.getD_none]
      · rw [empty, Option.getD_some]
    rw [outputEnds.fileName?_eq_some outputForward, bare, PathPart.underExtension_nil]

/-- A hidden patch with several dots, spelt with slashes and dots to spare, for a dump with an
extension and for one whose name ends in a dot; and a patch without a file name. -/
theorem defaultOutput_named_hidden :
    defaultOutput (.ofString "v1.2/game.nes/") (.ofString "./hacks//.hack.v2.bps/./") =
        .ofString "./hacks//.hack.v2.nes" ∧
      (Path.ofString "./hacks//.hack.v2.nes").parent? = some (.ofString "./hacks") ∧
      (Path.ofString "./hacks//.hack.v2.nes").stem? = some ".hack.v2".toList ∧
      (Path.ofString "./hacks//.hack.v2.nes").extension? = some "nes".toList ∧
      defaultOutput (.ofString "v1.2/game.nes/") (.ofString "./hacks//.hack.v2.nes") =
        .ofString "./hacks//.hack.v2.nes" ∧
      (defaultOutput (.ofString "game.") (.ofString "./hacks//.hack.v2.bps/./")).fileName? =
        some ".hack.v2".toList ∧
      defaultOutput (.ofString "game.nes") (.ofString "hacks/../.") = .ofString "hacks/../." := by
  have output : .ofString "./hacks//.hack.v2.nes" =
      defaultOutput (.ofString "v1.2/game.nes/") (.ofString "./hacks//.hack.v2.bps/./") := by
    decide +kernel
  obtain ⟨extended, -, -⟩ := defaultOutput_named rfl rfl output
  obtain ⟨bare, -, -⟩ := @defaultOutput_named "game." "./hacks//.hack.v2.bps/./" _ _ _ rfl rfl rfl
  obtain ⟨-, unnamed, kept⟩ := @defaultOutput_named "game.nes" "hacks/../." _ _ _ rfl rfl rfl
  have stem : (Path.ofString "./hacks//.hack.v2.bps/./").stem? = some ".hack.v2".toList := by
    decide +kernel
  have up : (Path.ofString "hacks/../.").steps.getLast? = some .up := by decide +kernel
  obtain ⟨⟨directory, above, outputAbove, -⟩, withExtension, -⟩ :=
    extended _ stem (by decide +kernel) (by decide +kernel)
  obtain ⟨outputStem, outputExtension, again⟩ :=
    withExtension "nes".toList (by decide +kernel) (by decide +kernel)
  obtain ⟨-, -, withoutExtension⟩ := bare _ stem (by decide +kernel) (by decide +kernel)
  have hacks : some directory = some (.ofString "./hacks") := above.symm.trans (by decide +kernel)
  exact ⟨output.symm, outputAbove.trans hacks, outputStem, outputExtension, again,
    withoutExtension (.inr (by decide +kernel)), kept (unnamed.mpr (.inr (.inr (.inr up))))⟩

end CommandLine

end BeatPatch
