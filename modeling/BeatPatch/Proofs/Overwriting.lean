import BeatPatch.Proofs.Effects

/-!
# When the dump is overwritten

The output is refused if it is spelt like the dump. Without `..`, and if both open alike, paths to
one file are always spelt alike (`Path.isSpeltLike_of_ofPath_eq`), so that the dump is kept. In
general they are not: the path from the root is never spelt like a relative one
(`Path.unalike_absolute`), nor is one that leaves the folder and comes back
(`Path.unalike_reentered`), and `./hack.nes` is not spelt like `hack.nes`, so that a run
overwrites the dump with the target (`not_run_keeps_source`). It does so only when it succeeds and
the output leads to the file of the dump in another spelling (`run_keeps_source`).
-/

namespace BeatPatch

namespace Path

/-- How a path opens: at the root, with a `.`, or with neither. -/
def opening (p : Path) : List Step :=
  match p.parts with
  | [] :: _ :: _ => [.root]
  | ['.'] :: _ => [.here]
  | _ => []

theorem opening_eq_nil {p : Path} (relative : ∀ part rest, p.parts = [] :: part :: rest → False)
    (plain : ∀ rest, p.parts = ['.'] :: rest → False) : p.opening = [] := by
  unfold opening
  split
  · rename_i absolute
    exact (relative _ _ absolute).elim
  · rename_i here
    exact (plain _ here).elim
  · rfl

theorem opening_cases (p : Path) : p.opening = [] ∨ p.opening = [.root] ∨ p.opening = [.here] := by
  unfold opening
  split
  · exact .inr (.inl rfl)
  · exact .inr (.inr rfl)
  · exact .inl rfl

theorem isAbsolute_eq (p : Path) : p.isAbsolute = decide (p.opening = [.root]) := by
  unfold isAbsolute opening
  split
  · rename_i absolute
    simp [absolute]
  · rename_i here
    simp [here]
  · rename_i relative plain
    match parts : p.parts with
    | [] | [_] => simp
    | [] :: part :: rest => exact (relative part rest parts).elim
    | (_ :: _) :: _ :: _ => simp

theorem steps_eq (p : Path) : p.steps = p.opening ++ stepsOf p.parts := by
  unfold steps
  split
  · rename_i absolute
    rw [opening, absolute]
    rfl
  · rename_i here
    rw [opening, here]
    rfl
  · rename_i relative plain
    rw [opening_eq_nil relative plain, List.nil_append]

/-- The root is only where a path opens. -/
theorem root_notMem_stepsOf (parts : List PathPart) : .root ∉ stepsOf parts := by
  intro root
  obtain ⟨part, -, step⟩ := List.mem_map.mp root
  split at step <;> cases step

/-- Parts without `..` are steps by name. -/
theorem stepsOf_of_forward {parts : List PathPart} (forward : PathPart.parent ∉ parts) :
    stepsOf parts = (parts.filter (!PathPart.isIdle ·)).map .name := by
  refine List.map_congr_left fun part mem => if_neg ?_
  rintro rfl
  exact forward (List.mem_filter.mp mem).1

end Path

/-- Paths without `..` that open alike are spelt alike if they lead to the same place. -/
theorem Path.isSpeltLike_of_ofPath_eq {location : FileKey} {p q : Path}
    (pForward : PathPart.parent ∉ p.parts) (qForward : PathPart.parent ∉ q.parts)
    (opening : p.opening = q.opening)
    (same : FileKey.ofPath location p = FileKey.ofPath location q) : p.isSpeltLike q = true := by
  have start : FileKey.startOf location p = FileKey.startOf location q := by
    rw [FileKey.startOf, FileKey.startOf, isAbsolute_eq, isAbsolute_eq, opening]
  rw [FileKey.ofPath, FileKey.ofPath, FileKey.foldl_follow_of_forward pForward,
    FileKey.foldl_follow_of_forward qForward, start] at same
  have names := List.append_cancel_left (congrArg FileKey.names same)
  rw [isSpeltLike, steps_eq, steps_eq, opening, stepsOf_of_forward pForward,
    stepsOf_of_forward qForward, names]
  exact decide_eq_true rfl

/-- Two paths that lead to one place but are not spelt alike. -/
structure Path.Unalike (location : FileKey) (p q : Path) : Prop where
  place : FileKey.ofPath location p = FileKey.ofPath location q
  spelling : p.isSpeltLike q = false

section Spellings

variable {location : FileKey} {p : Path} (relative : p.isAbsolute = false)

include relative

/-- From the root, a relative path is spelt in another way. -/
theorem Path.unalike_absolute
    (named : ∀ part ∈ location.names, part.isIdle = false ∧ part ≠ PathPart.parent)
    (parts : p.parts ≠ []) : Unalike location ⟨[] :: (location.names ++ p.parts)⟩ p := by
  refine ⟨FileKey.ofPath_absolute relative named parts, decide_eq_false fun same => ?_⟩
  have root : .root ∈ p.steps := by
    obtain ⟨part, rest, split⟩ := List.exists_cons_of_ne_nil
      (List.append_ne_nil_of_right_ne_nil location.names parts)
    rw [← same, split]
    exact List.mem_cons_self
  rw [steps_eq, List.mem_append] at root
  rw [isAbsolute_eq] at relative
  rcases p.opening_cases with opening | opening | opening <;> rw [opening] at root relative
  · exact root.elim nofun (root_notMem_stepsOf _)
  · cases relative
  · exact root.elim (by simp) (root_notMem_stepsOf _)

/-- So it is out of the folder and back into it by its name. -/
theorem Path.unalike_reentered {name : PathPart} (busy : name.isIdle = false)
    (forward : name ≠ PathPart.parent) :
    Unalike (location.entry name) ⟨PathPart.parent :: name :: p.parts⟩ p := by
  refine ⟨FileKey.ofPath_reentered relative busy forward, decide_eq_false fun same => ?_⟩
  -- There are two steps more, and at most one of them can be where the shorter path opens.
  have longer : (Path.mk (PathPart.parent :: name :: p.parts)).steps.length =
      (stepsOf p.parts).length + 2 := by
    show (stepsOf (PathPart.parent :: name :: p.parts)).length = _
    rw [stepsOf, stepsOf, List.filter_cons_of_pos rfl, List.filter_cons_of_pos (by simp [busy]),
      List.length_map, List.length_map, List.length_cons, List.length_cons]
  have shorter : p.steps.length ≤ (stepsOf p.parts).length + 1 := by
    rw [steps_eq, List.length_append]
    rcases p.opening_cases with opening | opening | opening <;> rw [opening] <;> simp <;> omega
  rw [same] at longer
  omega

end Spellings

namespace CommandLine

/-- A run of `apply` keeps the dump unless it succeeds with an output that leads to the file of the
dump. Such an output is not spelt like the dump, and the dump then reads as the target. It does
not come about without `..` if both paths open alike. -/
theorem run_keeps_source {build : Build} {environment : Option LogFilter} {words : List String}
    {folder : Folder} {i : Invocation} {a : ApplyArguments}
    (parsed : Invocation.parse words = .ok i) (command : i.command = .apply a) :
    (¬ ((run build environment words folder).exitCode = 0 ∧ folder.SameFile a.source a.outputPath) →
      ∀ bytes, ((run build environment words folder).folderAfter folder).read a.source = .ok bytes ↔
        folder.read a.source = .ok bytes) ∧
    ((run build environment words folder).exitCode = 0 → folder.SameFile a.source a.outputPath →
      a.outputPath.isSpeltLike a.source = false ∧
      ∃ source patch output, folder.read a.source = .ok source ∧ folder.read a.patch = .ok patch ∧
        (adaptiveApply build.family a.options source patch).result = .ok output ∧
        ((run build environment words folder).folderAfter folder).read a.source = .ok output) ∧
    (PathPart.parent ∉ a.source.parts → PathPart.parent ∉ a.outputPath.parts →
      a.outputPath.opening = a.source.opening →
      ∀ bytes, ((run build environment words folder).folderAfter folder).read a.source = .ok bytes ↔
        folder.read a.source = .ok bytes) := by
  have outcome := applyRun_run folder build environment parsed command
  have keeps (unaliased : ¬ ((run build environment words folder).exitCode = 0 ∧
      folder.SameFile a.source a.outputPath)) (bytes : Bytes) :
      ((run build environment words folder).folderAfter folder).read a.source = .ok bytes ↔
        folder.read a.source = .ok bytes := by
    by_cases succeeds : (run build environment words folder).exitCode = 0
    · obtain ⟨source, patch, output, -, writes⟩ := outcome.exists_written succeeds
      have other := fun same => unaliased ⟨succeeds, same⟩
      exact (Folder.replaces_of_write writes).others a.source other bytes
    · rw [outcome.kept succeeds]
  refine ⟨keeps, fun succeeds same => ?_, fun source output opening => keeps ?_⟩
  · obtain ⟨source, patch, output, ready, writes⟩ := outcome.exists_written succeeds
    obtain ⟨plain, -⟩ := Folder.read_eq_ok_iff.mp ready.sourceRead
    exact ⟨ready.distinct, source, patch, output, ready.sourceRead, ready.patchRead, ready.applied,
      (Folder.replaces_of_write writes).same a.source same plain⟩
  · rintro ⟨succeeds, same⟩
    -- Here the guard is enough: the same file means the same spelling, which would be refused.
    obtain ⟨_, _, _, ready, -⟩ := outcome.exists_written succeeds
    have alike := Path.isSpeltLike_of_ofPath_eq output source opening
      (Folder.sameFile_iff.mp same).2.2.symm
    cases ready.distinct.symm.trans alike

/-- In the folder `/roms` the dump `hack.nes` is overwritten if the output is spelt with a `.`, from
the root, or out of the folder and back into it; it is kept if the output is another file. -/
theorem run_keeps_source_hack :
    (∀ path ∈ ["./hack.nes", "/roms/hack.nes", "../roms/hack.nes"],
      ∃ source patch output, hackFolder.read (.ofString "hack.nes") = .ok source ∧
        hackFolder.read (.ofString "hack.bps") = .ok patch ∧
        (adaptiveApply bareBuild.family {} source patch).result = .ok output ∧
        ((run bareBuild none ["apply", "hack.nes", "hack.bps", "-o", path]
          hackFolder).folderAfter hackFolder).read (.ofString "hack.nes") = .ok output) ∧
    ((run bareBuild none ["apply", "hack.nes", "hack.bps", "-o", "/tmp/hack.nes"]
      hackFolder).folderAfter hackFolder).read (.ofString "hack.nes") = .ok [0x61] ∧
    ((run bareBuild none ["apply", "hack.nes", "hack.bps", "-o", "new.nes"]
      hackFolder).folderAfter hackFolder).read (.ofString "hack.nes") = .ok [0x61] := by
  have parsed (path : String) (plain : IsPlain path) :
      Invocation.parse ["apply", "hack.nes", "hack.bps", "-o", path] =
        .ok { command := .apply (.ofOptions "hack.nes" "hack.bps" [.output true path]) } :=
    (@parse_apply "hack.nes" "hack.bps" [] [] [.output true path] _ rfl (by decide) (by decide)
      (by simpa [ApplyOption.IsPlain, ApplyOption.path?] using plain)
      (by simp)).trans (if_neg (by simp))
  have plain : ∀ path ∈ ["./hack.nes", "/roms/hack.nes", "../roms/hack.nes"], IsPlain path := by
    decide
  have succeeds : ∀ path ∈ ["./hack.nes", "/roms/hack.nes", "../roms/hack.nes"],
      (run bareBuild none ["apply", "hack.nes", "hack.bps", "-o", path] hackFolder).exitCode =
        0 := by decide +kernel
  have same : ∀ path ∈ ["./hack.nes", "/roms/hack.nes", "../roms/hack.nes"],
      hackFolder.SameFile (.ofString "hack.nes") (.ofString path) := by
    simp only [Folder.sameFile_iff]
    decide +kernel
  have read : hackFolder.read (.ofString "hack.nes") = .ok [0x61] := by decide +kernel
  refine ⟨fun path listed => ?_, ?_, ?_⟩
  · obtain ⟨-, overwrites, -⟩ :=
      @run_keeps_source bareBuild none _ hackFolder _ _ (parsed path (plain path listed)) rfl
    exact (overwrites (succeeds path listed) (same path listed)).2
  · obtain ⟨keeps, -, -⟩ := @run_keeps_source bareBuild none _ hackFolder _ _
      (parsed "/tmp/hack.nes" (by decide)) rfl
    refine (keeps (fun aliased => ?_) _).mpr read
    have other := (Folder.sameFile_iff.mp aliased.2).2.2
    revert other
    decide +kernel
  · obtain ⟨-, -, keeps⟩ := @run_keeps_source bareBuild none _ hackFolder _ _
      (parsed "new.nes" (by decide)) rfl
    exact (keeps (by decide +kernel) (by decide +kernel) (by decide +kernel) _).mpr read

/-- There is a run that changes what the dump reads as. -/
theorem not_run_keeps_source :
    ¬ ∀ (build : Build) (environment : Option LogFilter) (words : List String) (folder : Folder)
      (i : Invocation) (a : ApplyArguments), Invocation.parse words = .ok i →
      i.command = .apply a →
      ((run build environment words folder).folderAfter folder).read a.source =
        folder.read a.source := by
  intro keeps
  have parsed : Invocation.parse ["apply", "hack.nes", "./hack.bps"] =
      .ok { command := .apply (.ofOptions "hack.nes" "./hack.bps" []) } :=
    (@parse_apply "hack.nes" "./hack.bps" [] [] [] _ rfl (by decide) (by decide) nofun
      List.nodup_nil).trans (if_neg (by decide))
  have before : hackFolder.read (.ofString "hack.nes") = .ok [0x61] := by decide +kernel
  have after : ((run bareBuild none ["apply", "hack.nes", "./hack.bps"] hackFolder).folderAfter
      hackFolder).read (.ofString "hack.nes") = .ok [0x62] := by decide +kernel
  cases before.symm.trans ((keeps bareBuild none _ hackFolder _ _ parsed rfl).symm.trans after)

end CommandLine

end BeatPatch
