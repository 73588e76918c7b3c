import BeatPatch.Proofs.CommandWords
import BeatPatch.Proofs.Effects

/-!
# Checksums of files

`crc` reports on one file after the other. What it says of a file depends on that file alone, so the
report on many files is made of the reports on each of them, up to the first that cannot be read
(`stdout_crcPlanFor`). A line tells the checksum of what is hashed and the name of a known dump, of
which the whole file decides before the hashed part (`IsLine`).
-/

namespace BeatPatch.CommandLine

/-! ## Plans -/

section Plans

variable {family : Family} {files : Files} {skip : Nat} {path : Path} {before paths : List Path}
  {file : Bytes}

theorem crcPlanFor_of_ok (read : files path = .ok file) (rest : List Path) :
    crcPlanFor family files skip (path :: rest) =
      Plan.after (crcLine family skip path file) [.hashed path.toString (file.length - skip)]
        (crcPlanFor family files skip rest) :=
  Plan.withFile_of_ok read

theorem crcPlanFor_of_error {cause : IoError} (failed : files path = .error cause)
    (rest : List Path) :
    crcPlanFor family files skip (path :: rest) = Plan.fail (.unreadable "file" path cause) :=
  Plan.withFile_of_error failed

theorem stdout_crcPlanFor_of_ok (read : files path = .ok file) :
    (crcPlanFor family files skip [path]).stdout = crcLine family skip path file := by
  rw [crcPlanFor_of_ok read]
  exact String.append_empty

/-- What is printed for several files is what is printed for each of them alone, up to the first
that cannot be read. -/
theorem stdout_crcPlanFor :
    (crcPlanFor family files skip paths).stdout =
      String.join ((paths.takeWhile fun path => (files path).isOk).map fun path =>
        (crcPlanFor family files skip [path]).stdout) := by
  induction paths with
  | nil => rfl
  | cons path rest ih =>
    cases read : files path with
    | ok file =>
      rw [List.takeWhile_cons_of_pos (by rw [read]; rfl), List.map_cons, String.join_cons, ← ih,
        stdout_crcPlanFor_of_ok read, crcPlanFor_of_ok read]
      rfl
    | error cause =>
      rw [List.takeWhile_cons_of_neg (by rw [read]; exact Bool.false_ne_true),
        crcPlanFor_of_error read]
      rfl

/-- Nothing of note is logged. -/
theorem level_of_mem_crcPlanFor :
    ∀ record ∈ (crcPlanFor family files skip paths).log, record.level = .debug := by
  induction paths with
  | nil => exact nofun
  | cons path rest ih =>
    cases read : files path with
    | ok file =>
      rw [crcPlanFor_of_ok read]
      exact List.forall_mem_cons.mpr ⟨rfl, ih⟩
    | error cause =>
      rw [crcPlanFor_of_error read]
      exact nofun

/-- Files that are read do not end the command. -/
theorem ending_crcPlanFor_append (readable : ∀ path ∈ before, (files path).isOk)
    (rest : List Path) :
    (crcPlanFor family files skip (before ++ rest)).ending =
      (crcPlanFor family files skip rest).ending := by
  induction before with
  | nil => rfl
  | cons path before ih =>
    obtain ⟨first, others⟩ := List.forall_mem_cons.mp readable
    cases read : files path with
    | ok file => rw [List.cons_append, crcPlanFor_of_ok read, Plan.after_ending, ih others]
    | error cause => rw [read] at first; cases first

theorem ending_crcPlanFor_of_readable (readable : ∀ path ∈ paths, (files path).isOk) :
    (crcPlanFor family files skip paths).ending = .done := by
  rw [← List.append_nil paths, ending_crcPlanFor_append readable]
  rfl

theorem ending_crcPlanFor_of_unreadable {cause : IoError}
    (readable : ∀ path ∈ before, (files path).isOk) (failed : files path = .error cause)
    (after : List Path) :
    (crcPlanFor family files skip (before ++ path :: after)).ending =
      .failed (.unreadable "file" path cause) := by
  rw [ending_crcPlanFor_append readable, crcPlanFor_of_error failed]
  rfl

/-- A file that cannot be read stands behind files that can. -/
theorem exists_first_unreadable (unreadable : ¬ ∀ path ∈ paths, (files path).isOk) :
    ∃ before path after cause, paths = before ++ path :: after ∧
      (∀ path ∈ before, (files path).isOk) ∧ files path = .error cause := by
  induction paths with
  | nil => exact absurd (fun _ mem => nomatch mem) unreadable
  | cons path rest ih =>
    cases read : files path with
    | error cause => exact ⟨[], path, rest, cause, rfl, nofun, read⟩
    | ok file =>
      have here : (files path).isOk := by rw [read]; rfl
      obtain ⟨before, other, after, cause, rfl, readable, failed⟩ :=
        ih fun others => unreadable (List.forall_mem_cons.mpr ⟨here, others⟩)
      exact ⟨path :: before, other, after, cause, rfl,
        List.forall_mem_cons.mpr ⟨here, readable⟩, failed⟩

end Plans

/-! ## Lines -/

/-- The line tells the checksum of a file without its first bytes, and the name of a known dump:
that with the checksum of the whole file, or else the first with the checksum told as that of its
program. -/
structure IsLine (family : Family) (file : Bytes) (skip : Nat) (path : Path) (checksum : UInt32)
    (named : Option Version) (line : String) : Prop where
  text : line = s!"{Text.checksum checksum}  {path}" ++
    (named.elim "" fun version => s!"  {version.name}") ++ "\n"
  hashed : checksum = crc32 (file.drop skip)
  beyond : file.length ≤ skip → checksum = crc32 []
  program : skip = headerSize → checksum = programChecksum file
  whole : ∀ version, (crc32 file, version) ∈ family.versions → named = some version
  part : (∀ version, (crc32 file, version) ∉ family.versions) →
    named = family.lookupProgram checksum

/-- Where no checksum is listed twice, the name on a line is that of a listed version. -/
theorem isLine_crcLine {family : Family} (once : (family.versions.map Prod.fst).Nodup)
    (file : Bytes) (skip : Nat) (path : Path) :
    ∃ named, IsLine family file skip path (crc32 (file.drop skip)) named
      (crcLine family skip path file) := by
  have listed_iff {version : Version} : family.lookup (crc32 file) = some version ↔
      (crc32 file, version) ∈ family.versions := lookup_eq_some_iff_mem once
  refine ⟨recognize family file (crc32 (file.drop skip)), ?_, rfl, ?_, ?_, ?_, ?_⟩
  · simp only [crcLine]
    cases recognize family file (crc32 (file.drop skip)) with
    | none => exact congrArg (· ++ "\n") String.append_empty.symm
    | some version => simp [toString, String.append_assoc]
  · intro beyond
    rw [List.drop_eq_nil_of_le beyond]
  · rintro rfl
    rfl
  · intro version listed
    rw [recognize, Family.identify, listed_iff.mpr listed]
    rfl
  · intro unlisted
    have unknown : family.lookup (crc32 file) = none :=
      Option.eq_none_iff_forall_not_mem.mpr fun version found =>
        unlisted version (listed_iff.mp found)
    rw [recognize, Family.identify, unknown]
    rfl

/-- Whatever conversion patches a build has, no dump is listed twice. -/
theorem Build.once_versions (build : Build) : (build.family.versions.map Prod.fst).Nodup := by
  have listed : build.family.versions.map Prod.fst = [0x7d3f6f3d, 0x43507232, 0xe0ca425c] := rfl
  rw [listed]
  decide

/-! ## Runs -/

/-- A run in the folder that is asked for the checksums of these files without their first bytes. -/
def IsChecksumRun (build : Build) (folder : Folder) (files : List Path) (skip : Nat) (r : Run) :
    Prop :=
  ∃ environment words i, Invocation.parse words = .ok i ∧ i.command = .crc ⟨files, skip⟩ ∧
    r = run build environment words folder

theorem IsChecksumRun.eq_finished {build : Build} {folder : Folder} {files : List Path} {skip : Nat}
    {r : Run} (asked : IsChecksumRun build folder files skip r) :
    ∃ filter, r = .finished filter (crcPlanFor build.family folder.read skip files) folder := by
  obtain ⟨environment, words, i, parsed, command, rfl⟩ := asked
  have other (a : ApplyArguments) : i.command ≠ .apply a := by
    rw [command]
    exact nofun
  refine ⟨environment.getD i.filter, ?_⟩
  rw [run_of_idle folder build environment parsed other, Invocation.plan, command]
  rfl

/-- `crc --skip N` is accepted with any plain names. What it prints is what it prints of each file
alone, in order, up to the first file that cannot be read. It fails if there is such a file, and
ends with a message that names that file and says why, with nothing in front of it but records for
those who debug. What is printed of a file is its checksum without the first bytes and the name of
the known dump that it is. -/
theorem stdout_of_isChecksumRun :
    (∀ {number : String} {names : List String} {skip : Nat} (build : Build)
      (environment : Option LogFilter) (folder : Folder), readSize? number = some skip →
      names ≠ [] → (∀ name ∈ names, IsPlain name) →
      IsChecksumRun build folder (names.map Path.ofString) skip
        (run build environment ("crc" :: "--skip" :: number :: names) folder)) ∧
    ∀ {build : Build} {folder : Folder} {files : List Path} {skip : Nat} {r : Run},
      IsChecksumRun build folder files skip r →
      (∃ line : Path → String,
        r.stdout = String.join ((files.takeWhile fun path => (folder.read path).isOk).map line) ∧
        (∀ path alone, IsChecksumRun build folder [path] skip alone →
          alone.stdout = line path) ∧
        ∀ path file, folder.read path = .ok file →
          ∃ checksum named, IsLine build.family file skip path checksum named (line path)) ∧
      (r.exitCode ≠ 0 ↔ ∃ path ∈ files, ¬ (folder.read path).isOk) ∧
      ∀ before path after cause, files = before ++ path :: after →
        (∀ path ∈ before, (folder.read path).isOk) → folder.read path = .error cause →
        r.exitCode = 1 ∧ ∃ (filter : LogFilter) (records : List LogRecord),
          (∀ record ∈ records, record.level = .debug) ∧
          r.stderr = filter.show records ++
            s!"Error: Failed to read file: {path}\n\nCaused by:\n    {cause.message}\n" := by
  refine ⟨fun build environment folder reads any plain =>
    ⟨environment, _, _, parse_crc reads any plain, rfl, rfl⟩, ?_⟩
  intro build folder files skip r asked
  obtain ⟨filter, rfl⟩ := asked.eq_finished
  have fails (before path after cause) (split : files = before ++ path :: after)
      (readable : ∀ path ∈ before, (folder.read path).isOk)
      (failed : folder.read path = .error cause) :
      (crcPlanFor build.family folder.read skip files).ending =
        .failed (.unreadable "file" path cause) :=
    split ▸ ending_crcPlanFor_of_unreadable readable failed after
  refine ⟨⟨fun path => (crcPlanFor build.family folder.read skip [path]).stdout,
    stdout_crcPlanFor, ?_, ?_⟩, ⟨?_, ?_⟩, ?_⟩
  · intro path alone asked
    obtain ⟨_, rfl⟩ := asked.eq_finished
    rfl
  · intro path file read
    obtain ⟨named, isLine⟩ := isLine_crcLine build.once_versions file skip path
    rw [← stdout_crcPlanFor_of_ok read] at isLine
    exact ⟨_, named, isLine⟩
  · intro failed
    by_contra none
    have readable : ∀ path ∈ files, (folder.read path).isOk := fun path mem =>
      by_contra fun unreadable => none ⟨path, mem, unreadable⟩
    exact failed (congrArg Ending.exitCode (ending_crcPlanFor_of_readable readable))
  · rintro ⟨path, mem, unreadable⟩
    obtain ⟨before, first, after, cause, split, readable, failed⟩ :=
      exists_first_unreadable fun readable => unreadable (readable path mem)
    have ends := fails before first after cause split readable failed
    exact (congrArg Ending.exitCode ends).trans_ne Nat.one_ne_zero
  · intro before path after cause split readable failed
    have ends := fails before path after cause split readable failed
    refine ⟨congrArg Ending.exitCode ends, filter,
      (crcPlanFor build.family folder.read skip files).log, level_of_mem_crcPlanFor, ?_⟩
    rw [Run.stderr, ends, Ending.report, Failure.report_eq]
    exact congrArg (filter.show _ ++ ·) (String.toList_injective (by simp [toString]))

/-- A folder with a file that has the checksum of a known dump. -/
def dumpFolder : Folder :=
  .ofFiles (.ofString "/roms") [(.ofString "dump.nes", [0x96, 0xFB, 0x3A, 0x3D])]

/-- The file is named by its whole, although its first bytes are skipped. The next one is not there,
and the run ends with it. -/
theorem stdout_of_isChecksumRun_dump :
    let r := run bareBuild none ["crc", "--skip", "2", "dump.nes", "gone.nes", "dump.nes"]
      dumpFolder
    r.stdout = "3c188097  dump.nes  Super Mario Bros. 2 (U) (PRG0) [!].nes\n" ∧
      r.exitCode = 1 ∧
      r.stderr = "Error: Failed to read file: gone.nes\n\nCaused by:\n" ++
        "    No such file or directory (os error 2)\n" := by
  intro r
  have plain : ∀ name ∈ ["dump.nes", "gone.nes", "dump.nes"], IsPlain name := by
    decide +kernel
  have asked : IsChecksumRun bareBuild dumpFolder _ 2 r :=
    stdout_of_isChecksumRun.1 bareBuild none dumpFolder (by decide) (by simp) plain
  have read : dumpFolder.read (.ofString "dump.nes") = .ok [0x96, 0xFB, 0x3A, 0x3D] := by
    decide +kernel
  have gone : dumpFolder.read (.ofString "gone.nes") = .error .notFound := by decide +kernel
  obtain ⟨⟨line, printed, -, lines⟩, -, fails⟩ := stdout_of_isChecksumRun.2 asked
  obtain ⟨checksum, named, isLine⟩ := lines _ _ read
  have whole := isLine.whole (bareBuild.family.versions.get ⟨0, by decide⟩).2 (by decide +kernel)
  have readable : (["dump.nes", "gone.nes", "dump.nes"].map Path.ofString).takeWhile
      (fun path => (dumpFolder.read path).isOk) = [.ofString "dump.nes"] := by
    decide +kernel
  obtain ⟨code, -⟩ := fails [.ofString "dump.nes"] (.ofString "gone.nes") _ .notFound rfl
    (by rw [List.forall_mem_singleton, read]; rfl) gone
  refine ⟨?_, code, by decide +kernel⟩
  rw [printed, readable, List.map_singleton, isLine.text, isLine.hashed, whole]
  decide +kernel

end BeatPatch.CommandLine
