import BeatPatch.CommandLine.Program
import BeatPatch.Proofs.ApplyWords
import BeatPatch.Proofs.Attempts
import BeatPatch.Proofs.Folders

/-!
# What a run does to the folder

A plan makes at most one write, the last thing that may fail. Only `apply` plans a write, and it
does so if the dump and the patch are read, the output is not refused, the patch is applied, and
what is to be verified is sound (`Ready`). So a run of `apply` writes the target and touches
nothing else, or it changes nothing (`run_all_or_nothing`).
-/

namespace BeatPatch

/-! ## Targets that can be held -/

/-- The target that a patch declares can be held. -/
def Patch.Bounded (patch : Bytes) : Prop := ∀ p, parse patch = .ok p → p.targetSize < offsetBound

/-- The targets that the conversion patches of a family declare can be held. -/
def Family.Bounded (family : Family) : Prop :=
  ∀ source target conversion, family.conversion source target = some conversion →
    Patch.Bounded conversion

section Bounded

variable {source patch : Bytes}

theorem apply_ne_tooLarge (bounded : Patch.Bounded patch) (size : Nat) :
    (apply source patch).result ≠ .error (.targetTooLarge size) := by
  intro large
  obtain ⟨p, parsed, beyond⟩ := exists_parse_of_apply_tooLarge large
  exact absurd (bounded p parsed) (Nat.not_lt_of_le beyond)

/-- After repairs, too, a target is too large only if the patch or a conversion patch declares it
so. -/
theorem adaptiveApply_ne_tooLarge {family : Family} {options : RecoveryOptions}
    (conversions : family.Bounded) (bounded : Patch.Bounded patch) (size : Nat) :
    (adaptiveApply family options source patch).result ≠ .error (.targetTooLarge size) := by
  intro large
  have ending : Ending family options source patch _ := ending_adaptiveApply
  rw [large] at ending
  cases ending with
  | direct same => exact apply_ne_tooLarge bounded size same
  | failed retry failure other =>
    cases retry with
    | repaired candidate => exact apply_ne_tooLarge bounded size failure
    | conversion allowed requires converts =>
      exact apply_ne_tooLarge (conversions _ _ _ converts.available) size failure

end Bounded

namespace CommandLine

/-! ## Plans -/

namespace Plan

variable {files : Files} {role : String} {path : Path} {bytes : Bytes} {next : Bytes → Plan}
  {p : Plan} {folder folder' : Folder} {output : Output}

theorem withFile_of_ok (read : files path = .ok bytes) :
    withFile files role path next = next bytes := by
  rw [withFile, read]

theorem withFile_of_error {cause : IoError} (failed : files path = .error cause) :
    withFile files role path next = fail (.unreadable role path cause) := by
  rw [withFile, failed]

@[simp]
theorem after_ending (stdout : String) (log : List LogRecord) (p : Plan) :
    (after stdout log p).ending = p.ending :=
  rfl

@[simp]
theorem after_output (stdout : String) (log : List LogRecord) (p : Plan) :
    (after stdout log p).output = p.output :=
  rfl

theorem output_withFile (idle : ∀ bytes, (next bytes).output = none) :
    (withFile files role path next).output = none := by
  unfold withFile
  split
  · exact idle _
  · rfl

/-- A plan without a write, or one that has failed, changes nothing. -/
theorem carryOut_of_idle (idle : p.write? = none) :
    p.carryOut folder = ({ p with output := none }, folder) := by
  simp only [carryOut, idle, settle]
  rw [write?] at idle
  split
  · rename_i done writes
    rw [if_pos done, writes] at idle
    cases idle
  · rfl

section Writing

variable (done : p.ending = .done) (writes : p.output = some output)

include done writes

theorem carryOut_of_written (written : folder.write output.path output.bytes = .ok folder') :
    p.carryOut folder = ({ p with stdout := p.stdout ++ output.announcement, output := none },
      folder') := by
  rw [carryOut, write?, if_pos done, writes]
  simp only [written, settle, done, writes]

theorem carryOut_of_unwritable {cause : IoError}
    (failed : folder.write output.path output.bytes = .error cause) :
    p.carryOut folder =
      ({ p with ending := .failed (.unwritable output.path cause), output := none }, folder) := by
  rw [carryOut, write?, if_pos done, writes]
  simp only [failed, settle, done, writes]

end Writing

end Plan

/-! ## Commands that write nothing -/

theorem output_instructionPlan (s : Stream) : (instructionPlan s).output = none := by
  unfold instructionPlan
  split
  · rfl
  · split
    · rfl
    · split <;> rfl

theorem output_infoPlan (family : Family) (files : Files) (a : InfoArguments) :
    (infoPlan family files a).output = none := by
  refine Plan.output_withFile fun bytes => ?_
  cases Patch.parse bytes with
  | error e => rfl
  | ok p =>
    rw [Plan.after_output]
    split
    · exact output_instructionPlan p.stream
    · rfl

theorem output_crcPlanFor (family : Family) (files : Files) (skip : Nat) (paths : List Path) :
    (crcPlanFor family files skip paths).output = none := by
  induction paths with
  | nil => rfl
  | cons path rest ih => exact Plan.output_withFile fun bytes => ih

theorem Invocation.output_plan {i : Invocation} (other : ∀ a, i.command ≠ .apply a)
    (build : Build) (files : Files) : (i.plan build files).output = none := by
  unfold Invocation.plan
  cases command : i.command with
  | apply a => exact absurd command (other a)
  | info a => exact output_infoPlan build.family files a
  | crc a => exact output_crcPlanFor build.family files a.skip a.files
  | completions shell => rfl

/-! ## The plan of `apply` -/

/-- The patch stores its own checksum and that of what it has produced of this output. -/
def Verified (patch output : Bytes) : Prop :=
  ∃ p, Patch.parse patch = .ok p ∧ verifyOutput p output = .ok ()

/-- All that `apply` needs for an output to write. -/
structure Ready (family : Family) (files : Files) (a : ApplyArguments)
    (source patch output : Bytes) : Prop where
  sourceRead : files a.source = .ok source
  patchRead : files a.patch = .ok patch
  distinct : a.outputPath.isSpeltLike a.source = false
  applied : (adaptiveApply family a.options source patch).result = .ok output
  verified : a.verify = true → Verified patch output

/-- What planning `apply` comes to: an output, a failure, or a target that cannot be held. -/
inductive Planned (family : Family) (files : Files) (a : ApplyArguments) (p : Plan) : Prop where
  | ready {source patch output : Bytes} {announcement : String}
      (ready : Ready family files a source patch output) (done : p.ending = .done)
      (writes : p.output = some ⟨a.outputPath, output, announcement⟩)
  | failed (failure : Failure) (ending : p.ending = .failed failure)
      (unready : ∀ source patch output, ¬ Ready family files a source patch output)
  | exhausted {source patch : Bytes} {size : Nat} (ending : p.ending = .exhausted .memory)
      (sourceRead : files a.source = .ok source) (patchRead : files a.patch = .ok patch)
      (large : (adaptiveApply family a.options source patch).result =
        .error (.targetTooLarge size))
      (unready : ∀ source patch output, ¬ Ready family files a source patch output)

section Apply

variable {family : Family} {files : Files} {a : ApplyArguments} {source patch output : Bytes}

/-- There is one output to be ready with. -/
theorem Ready.unique {source' patch' output' : Bytes}
    (first : Ready family files a source patch output)
    (second : Ready family files a source' patch' output') :
    source = source' ∧ patch = patch' ∧ output = output' := by
  cases first.sourceRead.symm.trans second.sourceRead
  cases first.patchRead.symm.trans second.patchRead
  cases first.applied.symm.trans second.applied
  exact ⟨rfl, rfl, rfl⟩

section Verifying

variable {verify : Bool} {next : Plan}

/-- An output that is not to be verified, or is sound, is gone on with. -/
theorem verifyThen_of_sound (sound : verify = true → Verified patch output) :
    ∃ log, verifyThen verify patch output next = Plan.after "" log next := by
  cases verify with
  | false => exact ⟨[], by simp [verifyThen, Plan.after]⟩
  | true =>
    obtain ⟨p, parsed, checked⟩ := sound rfl
    exact ⟨[parsedRecord p], by simp only [verifyThen, Bool.not_true, Bool.false_eq_true, if_false,
      parsed, checked]⟩

/-- An output that is to be verified and is not sound is not written. -/
theorem verifyThen_of_unsound (unsound : ¬ (verify = true → Verified patch output)) :
    ∃ failure, (verifyThen verify patch output next).ending = .failed failure := by
  cases verify with
  | false => exact absurd nofun unsound
  | true =>
    simp only [verifyThen, Bool.not_true, Bool.false_eq_true, if_false]
    cases parsed : Patch.parse patch with
    | error e => exact ⟨_, rfl⟩
    | ok p =>
      rw [Plan.after_ending]
      cases checked : verifyOutput p output with
      | error failure => exact ⟨_, rfl⟩
      | ok u => exact absurd (fun _ => ⟨p, parsed, checked⟩) unsound

end Verifying

/-- What is printed once an output is written. -/
def announcement (quiet : Bool) (a : ApplyArguments) (output : Bytes) : String :=
  if quiet then ""
  else s!"✓ Patched {a.source} -> {a.outputPath} ({Text.size output.length})\n"

/-- The plan that writes an output. -/
def writing (quiet : Bool) (a : ApplyArguments) (output : Bytes) : Plan :=
  { output := some ⟨a.outputPath, output, announcement quiet a output⟩ }

section Reading

variable {quiet : Bool} (sourceRead : files a.source = .ok source)
  (patchRead : files a.patch = .ok patch)

include sourceRead patchRead

theorem applyPlan_of_alike (alike : a.outputPath.isSpeltLike a.source = true) :
    applyPlan family files quiet a = Plan.fail (.overwritesSource a.source) := by
  simp only [applyPlan, Plan.withFile_of_ok sourceRead, Plan.withFile_of_ok patchRead, alike,
    if_true]

variable (distinct : a.outputPath.isSpeltLike a.source = false)

include distinct

theorem ending_applyPlan_of_error {e : PatchError}
    (failed : (adaptiveApply family a.options source patch).result = .error e) :
    (applyPlan family files quiet a).ending = .failed (.notApplied a.patch a.source e) ∨
      (∃ size, e = .targetTooLarge size) ∧
        (applyPlan family files quiet a).ending = .exhausted .memory := by
  simp only [applyPlan, Plan.withFile_of_ok sourceRead, Plan.withFile_of_ok patchRead, distinct,
    Bool.false_eq_true, if_false, failed, Plan.after_ending]
  cases e with
  | targetTooLarge size => exact .inr ⟨⟨size, rfl⟩, rfl⟩
  | _ => exact .inl rfl

theorem applyPlan_of_applied
    (applied : (adaptiveApply family a.options source patch).result = .ok output) :
    ∃ log, applyPlan family files quiet a =
      Plan.after "" log (verifyThen a.verify patch output (writing quiet a output)) := by
  refine ⟨.applyCommand a.patch.toString a.options ::
    (adaptiveApply family a.options source patch).log, ?_⟩
  simp only [applyPlan, Plan.withFile_of_ok sourceRead, Plan.withFile_of_ok patchRead, distinct,
    Bool.false_eq_true, if_false, applied]
  rfl

end Reading

/-- Once it is ready, `apply` plans to write its output. -/
theorem Ready.applyPlan_eq (ready : Ready family files a source patch output) (quiet : Bool) :
    ∃ log, applyPlan family files quiet a = Plan.after "" log (writing quiet a output) := by
  obtain ⟨log, planned⟩ :=
    applyPlan_of_applied ready.sourceRead ready.patchRead ready.distinct ready.applied
  obtain ⟨log', sound⟩ := verifyThen_of_sound ready.verified
  refine ⟨log ++ log', ?_⟩
  rw [planned, sound]
  simp [Plan.after]

theorem planned_applyPlan (quiet : Bool) :
    Planned family files a (applyPlan family files quiet a) := by
  -- The checks in the order in which they are made; one that stops the plan also refutes a field
  -- of `Ready`, whatever source, patch and output are claimed.
  cases sourceRead : files a.source with
  | error cause =>
    refine .failed (.unreadable "ROM" a.source cause) ?_ fun _ _ _ ready =>
      nomatch sourceRead.symm.trans ready.sourceRead
    rw [applyPlan, Plan.withFile_of_error sourceRead]
    rfl
  | ok source =>
  cases patchRead : files a.patch with
  | error cause =>
    refine .failed (.unreadable "patch" a.patch cause) ?_ fun _ _ _ ready =>
      nomatch patchRead.symm.trans ready.patchRead
    rw [applyPlan, Plan.withFile_of_ok sourceRead, Plan.withFile_of_error patchRead]
    rfl
  | ok patch =>
  cases alike : a.outputPath.isSpeltLike a.source with
  | true =>
    refine .failed (.overwritesSource a.source) ?_ fun _ _ _ ready =>
      nomatch alike.symm.trans ready.distinct
    rw [applyPlan_of_alike sourceRead patchRead alike]
    rfl
  | false =>
  have only {source' patch' output : Bytes} (ready : Ready family files a source' patch' output) :
      source' = source ∧ patch' = patch := by
    cases sourceRead.symm.trans ready.sourceRead
    cases patchRead.symm.trans ready.patchRead
    exact ⟨rfl, rfl⟩
  cases applied : (adaptiveApply family a.options source patch).result with
  | error e =>
    have unready (s p o : Bytes) (ready : Ready family files a s p o) : False := by
      obtain ⟨rfl, rfl⟩ := only ready
      cases applied.symm.trans ready.applied
    rcases ending_applyPlan_of_error sourceRead patchRead alike applied with
      ending | ⟨⟨size, rfl⟩, ending⟩
    · exact .failed _ ending unready
    · exact .exhausted ending sourceRead patchRead applied unready
  | ok output =>
    by_cases sound : a.verify = true → Verified patch output
    · have ready : Ready family files a source patch output :=
        ⟨sourceRead, patchRead, alike, applied, sound⟩
      obtain ⟨log, planned⟩ := ready.applyPlan_eq quiet
      rw [planned]
      exact .ready ready rfl rfl
    · obtain ⟨log, planned⟩ := applyPlan_of_applied sourceRead patchRead alike applied
      obtain ⟨failure, stops⟩ := verifyThen_of_unsound sound
      refine .failed failure (by rw [planned, Plan.after_ending, stops]) fun s p o ready => sound ?_
      obtain ⟨rfl, rfl⟩ := only ready
      cases applied.symm.trans ready.applied
      exact ready.verified

end Apply

/-! ## Runs -/

/-- The folder that a run leaves; a command line that is refused changes nothing. -/
def Run.folderAfter (before : Folder) : Run → Folder
  | .refused _ _ => before
  | .finished _ _ folder => folder

/-- What a run of `apply` comes to: its output is written; or it fails; or it breaks off, since a
target is declared that cannot be held. -/
inductive ApplyRun (family : Family) (folder : Folder) (a : ApplyArguments) (r : Run) : Prop where
  | written {source patch output : Bytes} (ready : Ready family folder.read a source patch output)
      (writes : folder.write a.outputPath output = .ok (r.folderAfter folder))
      (code : r.exitCode = 0)
  | failed (kept : r.folderAfter folder = folder)
      (unwritable : ∀ source patch output, Ready family folder.read a source patch output →
        ∃ cause, folder.write a.outputPath output = .error cause)
      (code : r.exitCode = 1)
  | exhausted {source patch : Bytes} {size : Nat} (kept : r.folderAfter folder = folder)
      (unready : ∀ source patch output, ¬ Ready family folder.read a source patch output)
      (sourceRead : folder.read a.source = .ok source)
      (patchRead : folder.read a.patch = .ok patch)
      (large : (adaptiveApply family a.options source patch).result =
        .error (.targetTooLarge size)) (code : r.exitCode = 101)

section Run

variable {family : Family} {folder : Folder} {a : ApplyArguments} {r : Run}

/-- A run that succeeds has written its output. -/
theorem ApplyRun.exists_written (h : ApplyRun family folder a r) (succeeds : r.exitCode = 0) :
    ∃ source patch output, Ready family folder.read a source patch output ∧
      folder.write a.outputPath output = .ok (r.folderAfter folder) := by
  cases h with
  | written ready writes => exact ⟨_, _, _, ready, writes⟩
  | failed _ _ code => cases succeeds.symm.trans code
  | exhausted _ _ _ _ _ code => cases succeeds.symm.trans code

/-- A run that does not succeed leaves the folder as it was. -/
theorem ApplyRun.kept (h : ApplyRun family folder a r) (fails : r.exitCode ≠ 0) :
    r.folderAfter folder = folder := by
  cases h with
  | written _ _ code => exact absurd code fails
  | failed kept => exact kept
  | exhausted kept => exact kept

/-- A run that is ready and can write its output does so. -/
theorem ApplyRun.of_ready {source patch output : Bytes} {folder' : Folder}
    (h : ApplyRun family folder a r) (ready : Ready family folder.read a source patch output)
    (writes : folder.write a.outputPath output = .ok folder') :
    r.exitCode = 0 ∧ r.folderAfter folder = folder' := by
  cases h with
  | written other written code =>
    obtain ⟨-, -, rfl⟩ := other.unique ready
    exact ⟨code, Except.ok.inj (written.symm.trans writes)⟩
  | failed _ unwritable =>
    obtain ⟨cause, failed⟩ := unwritable source patch output ready
    cases writes.symm.trans failed
  | exhausted _ unready => exact absurd ready (unready source patch output)

/-- A run fails if what it is to verify is not sound. -/
theorem ApplyRun.of_unverified {source patch output : Bytes} (h : ApplyRun family folder a r)
    (sourceRead : folder.read a.source = .ok source) (patchRead : folder.read a.patch = .ok patch)
    (applied : (adaptiveApply family a.options source patch).result = .ok output)
    (verify : a.verify = true) (unsound : ¬ Verified patch output) :
    r.exitCode = 1 ∧ r.folderAfter folder = folder := by
  cases h with
  | written ready =>
    cases sourceRead.symm.trans ready.sourceRead
    cases patchRead.symm.trans ready.patchRead
    cases applied.symm.trans ready.applied
    exact absurd (ready.verified verify) unsound
  | failed kept _ code => exact ⟨code, kept⟩
  | exhausted _ _ sourceRead' patchRead' large =>
    cases sourceRead.symm.trans sourceRead'
    cases patchRead.symm.trans patchRead'
    cases applied.symm.trans large

/-- A run that does not succeed ends with code 1 if all declared targets can be held. -/
theorem ApplyRun.exitCode_eq_one (h : ApplyRun family folder a r) (fails : r.exitCode ≠ 0)
    (conversions : family.Bounded)
    (bounded : ∀ patch, folder.read a.patch = .ok patch → Patch.Bounded patch) :
    r.exitCode = 1 := by
  cases h with
  | written _ _ code => exact absurd code fails
  | failed _ _ code => exact code
  | exhausted _ _ _ patchRead large =>
    exact absurd large (adaptiveApply_ne_tooLarge conversions (bounded _ patchRead) _)

variable (build : Build) (environment : Option LogFilter) {words : List String} (folder)
  {i : Invocation} (parsed : Invocation.parse words = .ok i)

include parsed

/-- An accepted command is planned and carried out. -/
theorem run_of_parse :
    run build environment words folder =
      .finished (environment.getD i.filter) ((i.plan build folder.read).carryOut folder).1
        ((i.plan build folder.read).carryOut folder).2 := by
  rw [run, parsed]

/-- A command that writes nothing is done once it is planned. -/
theorem run_of_idle (other : ∀ a, i.command ≠ .apply a) :
    run build environment words folder =
      .finished (environment.getD i.filter) (i.plan build folder.read) folder := by
  have idle := Invocation.output_plan other build folder.read
  rw [run_of_parse folder build environment parsed,
    Plan.carryOut_of_idle (by rw [Plan.write?, idle, ite_self]), ← idle]

variable (command : i.command = .apply a)

include command

theorem applyRun_run :
    ApplyRun build.family folder a (run build environment words folder) := by
  rw [run_of_parse folder build environment parsed, Invocation.plan, command]
  cases planned_applyPlan i.quiet with
  | ready ready done writes =>
    cases written : folder.write a.outputPath _ with
    | ok folder' =>
      rw [Plan.carryOut_of_written done writes written]
      exact .written ready written (congrArg Ending.exitCode done)
    | error cause =>
      rw [Plan.carryOut_of_unwritable done writes written]
      refine .failed rfl (fun s p o other => ⟨cause, ?_⟩) rfl
      obtain ⟨-, -, rfl⟩ := ready.unique other
      exact written
  | failed failure ending unready =>
    rw [Plan.carryOut_of_idle (by rw [Plan.write?, ending]; rfl)]
    exact .failed rfl (fun s p o ready => absurd ready (unready s p o))
      (congrArg Ending.exitCode ending)
  | exhausted ending sourceRead patchRead large unready =>
    rw [Plan.carryOut_of_idle (by rw [Plan.write?, ending]; rfl)]
    exact .exhausted rfl unready sourceRead patchRead large (congrArg Ending.exitCode ending)

end Run

/-- The conversion patches of a build are those that are built in. -/
theorem Build.bounded_family {build : Build}
    (first : ∀ patch, build.embedded.rev0ToRevA = some patch → Patch.Bounded patch)
    (second : ∀ patch, build.embedded.revAToRev0 = some patch → Patch.Bounded patch) :
    build.family.Bounded := by
  intro source target conversion available
  cases source <;> cases target
  · cases available
  · exact first conversion available
  · exact second conversion available
  · cases available

/-- Only `apply` changes anything. A run of it that does not succeed changes nothing and ends with
code 1, unless the patch or one that is built in declares a target that cannot be held. It succeeds
if it is ready and its output can be written; the output is then what the patch makes of the dump
with the repairs that the options allow, and the file that it is written to is the only one that is
changed. It can be read there, unless the output is a device (`Folder.write_of_isDevice`). -/
theorem run_all_or_nothing {build : Build} {environment : Option LogFilter} {words : List String}
    {folder : Folder} {i : Invocation} (parsed : Invocation.parse words = .ok i) :
    ((∀ a, i.command ≠ .apply a) →
      (run build environment words folder).folderAfter folder = folder) ∧
    ∀ a, i.command = .apply a →
      ((run build environment words folder).exitCode ≠ 0 →
        (run build environment words folder).folderAfter folder = folder ∧
        ((∀ patch, folder.read a.patch = .ok patch ∨ build.embedded.rev0ToRevA = some patch ∨
            build.embedded.revAToRev0 = some patch → Patch.Bounded patch) →
          (run build environment words folder).exitCode = 1)) ∧
      ((run build environment words folder).exitCode = 0 ↔
        ∃ source patch output, Ready build.family folder.read a source patch output ∧
          ∃ folder', folder.write a.outputPath output = .ok folder') ∧
      ((run build environment words folder).exitCode = 0 →
        ∃ source patch output, folder.read a.source = .ok source ∧
          folder.read a.patch = .ok patch ∧
          (adaptiveApply build.family
            (if a.strict then .strict else ⟨!a.noSmb2, !a.noSmc⟩) source patch).result =
              .ok output ∧
          folder.Replaces a.outputPath output
            ((run build environment words folder).folderAfter folder)) := by
  refine ⟨fun other => ?_, fun a command => ?_⟩
  · rw [run_of_parse folder build environment parsed, Plan.carryOut_of_idle]
    · rfl
    · rw [Plan.write?, Invocation.output_plan other, ite_self]
  · have outcome := applyRun_run folder build environment parsed command
    refine ⟨fun fails => ⟨outcome.kept fails, fun bounded => ?_⟩, ⟨?_, ?_⟩, ?_⟩
    · exact outcome.exitCode_eq_one fails
        (Build.bounded_family (fun patch here => bounded patch (.inr (.inl here)))
          fun patch here => bounded patch (.inr (.inr here)))
        fun patch read => bounded patch (.inl read)
    · intro succeeds
      obtain ⟨source, patch, output, ready, writes⟩ := outcome.exists_written succeeds
      exact ⟨source, patch, output, ready, _, writes⟩
    · rintro ⟨source, patch, output, ready, folder', writes⟩
      exact (outcome.of_ready ready writes).1
    · intro succeeds
      obtain ⟨source, patch, output, ready, writes⟩ := outcome.exists_written succeeds
      exact ⟨source, patch, output, ready.sourceRead, ready.patchRead, ready.applied,
        Folder.replaces_of_write writes⟩

/-- A build without conversion patches, which has no words of its own. -/
def bareBuild : Build where
  explain _ _ := ""
  completionScript _ := ""

/-- A patch that makes the dump `b` of the dump `a`. -/
def hackPatch : Bytes :=
  signature ++ [0x81, 0x81, 0x80, 0x81, 0x62, 0x43, 0xBE, 0xB7, 0xE8, 0xF9, 0xEF, 0xBE, 0x71,
    0xF0, 0x94, 0x7B, 0x67]

/-- A folder with the dump and the patch. -/
def hackFolder : Folder :=
  .ofFiles (.ofString "/roms") [(.ofString "hack.nes", [0x61]), (.ofString "hack.bps", hackPatch)]

/-- What the patch is read as. -/
def parsedHack : Patch :=
  ⟨hackPatch, 1, 1, [], ⟨0xE8B7BE43, 0x71BEEFF9, 0x677B94F0⟩, ⟨7, hackPatch.drop 7⟩⟩

theorem parse_hackPatch : Patch.parse hackPatch = .ok parsedHack := by
  decide +kernel

theorem bounded_hackPatch : Patch.Bounded hackPatch := by
  intro p parsed
  cases parse_hackPatch.symm.trans parsed
  decide

/-- The patch is applied; it is refused the dump as its output; and it is reported on. -/
theorem run_all_or_nothing_hack :
    (run bareBuild none ["apply", "--no-smc", "hack.nes", "--verify", "hack.bps", "-o", "new.nes"]
        hackFolder).exitCode = 0 ∧
      (∃ source patch output, hackFolder.read (.ofString "hack.nes") = .ok source ∧
        hackFolder.read (.ofString "hack.bps") = .ok patch ∧
        (adaptiveApply bareBuild.family ⟨true, false⟩ source patch).result = .ok output ∧
        hackFolder.Replaces (.ofString "new.nes") output
          ((run bareBuild none
            ["apply", "--no-smc", "hack.nes", "--verify", "hack.bps", "-o", "new.nes"]
            hackFolder).folderAfter hackFolder)) ∧
      (run bareBuild none ["apply", "hack.nes", "hack.bps"] hackFolder).exitCode = 1 ∧
      (run bareBuild none ["apply", "hack.nes", "hack.bps"] hackFolder).folderAfter hackFolder =
        hackFolder ∧
      (run bareBuild none ["info", "hack.bps"] hackFolder).folderAfter hackFolder =
        hackFolder := by
  -- The options of the first run stand in front of the operands, between them and behind.
  have other : Invocation.parse
      ["apply", "--no-smc", "hack.nes", "--verify", "hack.bps", "-o", "new.nes"] =
        .ok { command := .apply (.ofOptions "hack.nes" "hack.bps"
          [.switch .noSmc, .switch .verify, .output true "new.nes"]) } :=
    (@parse_apply "hack.nes" "hack.bps" [.switch .noSmc] [.switch .verify] [.output true "new.nes"]
      _ rfl (by decide) (by decide) (by decide) (by decide)).trans (if_neg (by decide))
  have same : Invocation.parse ["apply", "hack.nes", "hack.bps"] =
      .ok { command := .apply (.ofOptions "hack.nes" "hack.bps" []) } :=
    (@parse_apply "hack.nes" "hack.bps" [] [] [] _ rfl (by decide) (by decide) nofun
      List.nodup_nil).trans (if_neg (by decide))
  have info : Invocation.parse ["info", "hack.bps"] =
      .ok ⟨.info { patch := .ofString "hack.bps" }, 0, false⟩ := by decide +kernel
  have succeeds : (run bareBuild none
      ["apply", "--no-smc", "hack.nes", "--verify", "hack.bps", "-o", "new.nes"]
      hackFolder).exitCode = 0 := by decide +kernel
  have fails : (run bareBuild none ["apply", "hack.nes", "hack.bps"] hackFolder).exitCode ≠ 0 := by
    decide +kernel
  have read : hackFolder.read (.ofString "hack.bps") = .ok hackPatch := by decide +kernel
  obtain ⟨kept, code⟩ := ((run_all_or_nothing same).2 _ rfl).1 fails
  refine ⟨succeeds, ((run_all_or_nothing other).2 _ rfl).2.2 succeeds, code ?_, kept,
    (run_all_or_nothing info).1 nofun⟩
  rintro patch (found | missing | missing)
  · cases read.symm.trans found
    exact bounded_hackPatch
  · cases missing
  · cases missing

end CommandLine

end BeatPatch
