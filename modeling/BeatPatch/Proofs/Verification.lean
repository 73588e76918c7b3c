import BeatPatch.Proofs.Effects
import BeatPatch.Proofs.Residue

/-!
# What verification looks at

The target of a patch is found in an output by its size alone: it is what remains behind as many
bytes as the output is longer than the patch declares. Whichever repair has helped, that is the
target of the application that succeeded, since its size is the declared one, and the bytes in
front of it are the copier header if one was taken off (`Applied.cut`). So verification accepts an
output if the patch stores its own checksum and that of this target (`Applied.verified_iff`); a run
then does as one that does not verify, and otherwise it fails (`run_verify`).
-/

namespace BeatPatch

/-- An output comes from applying a patch to what a recovery makes of a dump, if any was needed,
which gives a target, and from putting back what was taken off the dump. -/
structure Applied (family : Family) (options : RecoveryOptions) (source patch : Bytes)
    (recovery : Option Recovery) (target output : Bytes) : Prop where
  candidate : ∃ x, Candidate family options source patch recovery x ∧
    (apply x patch).result = .ok target
  output : output = keptHeader source recovery ++ target

/-- Nothing is put back, or the copier header, of a shorter dump as much as there is. -/
theorem keptHeader_cases (source : Bytes) (recovery : Option Recovery) :
    keptHeader source recovery = [] ∨
      keptHeader source recovery = source.take copierHeaderSize ∧
        (keptHeader source recovery).length = min copierHeaderSize source.length := by
  match recovery with
  | none | some .headerRepair | some .revisionConversion => exact .inl rfl
  | some .copierHeaderRemoval => exact .inr ⟨rfl, List.length_take⟩

section Applied

variable {family : Family} {options : RecoveryOptions} {source patch target output : Bytes}
  {recovery : Option Recovery} {p : Patch}

theorem exists_applied
    (success : (adaptiveApply family options source patch).result = .ok output) :
    ∃ recovery target, Applied family options source patch recovery target output := by
  obtain ⟨recovery, x, target, candidate, applied, same⟩ := exists_candidate success
  exact ⟨recovery, target, ⟨x, candidate, applied⟩, same⟩

/-- A patch that has been applied after any repair is parsed, and declares the size of the
target. -/
theorem Applied.parse (applied : Applied family options source patch recovery target output) :
    ∃ p, Patch.parse patch = .ok p ∧ p.targetSize = target.length := by
  obtain ⟨x, -, success⟩ := applied.candidate
  obtain ⟨p, parsed, -, -, size⟩ := parse_of_apply success
  exact ⟨p, parsed, size⟩

/-- The declared size cuts the output between what was put back and the target. -/
theorem Applied.cut (applied : Applied family options source patch recovery target output)
    (parsed : Patch.parse patch = .ok p) :
    output.take (output.length - p.targetSize) = keptHeader source recovery ∧
      CommandLine.producedPart p output = target := by
  obtain ⟨p', same, size⟩ := applied.parse
  cases parsed.symm.trans same
  -- Whatever was put back is as long as the output exceeds the declared size.
  have front : output.length - p.targetSize = (keptHeader source recovery).length := by
    rw [applied.output, List.length_append, size, Nat.add_sub_cancel]
  rw [CommandLine.producedPart, front, applied.output]
  exact ⟨List.take_left, List.drop_left⟩

/-- Verification accepts an output if the patch stores its own checksum and that of the target. -/
theorem Applied.verified_iff
    (applied : Applied family options source patch recovery target output) :
    CommandLine.Verified patch output ↔ ∃ p, Patch.parse patch = .ok p ∧
      p.verifyPatch = .ok () ∧ p.verifyTarget target = .ok () := by
  refine exists_congr fun p => and_congr_right fun parsed => ?_
  rw [CommandLine.verifyOutput, (applied.cut parsed).2]
  cases p.verifyPatch with
  | error e => exact iff_of_false nofun (nomatch ·.1)
  | ok u =>
    cases p.verifyTarget target with
    | error e => exact iff_of_false nofun (nomatch ·.2)
    | ok u => exact iff_of_true rfl ⟨rfl, rfl⟩

end Applied

namespace CommandLine

/-- A verified run that succeeds has found the checksum of the patch and that of the target, which
is all that it has written but for a copier header. If both are found the run succeeds, and leaves
the same folder as one that does not verify; if one is not, it fails and changes nothing. What is
found is the checksum of all bytes of the patch in front of it, and that of the target. A patch
that has been applied is always parsed again. -/
theorem run_verify {build : Build} {environment : Option LogFilter} {words : List String}
    {folder : Folder} {i : Invocation} {a : ApplyArguments}
    (parsed : Invocation.parse words = .ok i) (command : i.command = .apply a)
    (verify : a.verify = true) :
    ((run build environment words folder).exitCode = 0 →
      ∃ source patch output p recovery target, folder.read a.source = .ok source ∧
        folder.read a.patch = .ok patch ∧
        (adaptiveApply build.family a.options source patch).result = .ok output ∧
        Applied build.family a.options source patch recovery target output ∧
        folder.Replaces a.outputPath output
          ((run build environment words folder).folderAfter folder) ∧
        Patch.parse patch = .ok p ∧ p.verifyPatch = .ok () ∧ p.verifyTarget target = .ok () ∧
        target.length = p.targetSize ∧ producedPart p output = target ∧
        output.take (output.length - p.targetSize) = keptHeader source recovery ∧
        (keptHeader source recovery = [] ∨
          keptHeader source recovery = source.take copierHeaderSize ∧
            (keptHeader source recovery).length = min copierHeaderSize source.length)) ∧
    (∀ source patch output p recovery target folder', folder.read a.source = .ok source →
      folder.read a.patch = .ok patch → a.outputPath.isSpeltLike a.source = false →
      (adaptiveApply build.family a.options source patch).result = .ok output →
      Applied build.family a.options source patch recovery target output →
      Patch.parse patch = .ok p → p.verifyPatch = .ok () → p.verifyTarget target = .ok () →
      folder.write a.outputPath output = .ok folder' →
      ((run build environment words folder).exitCode = 0 ∧
        (run build environment words folder).folderAfter folder = folder') ∧
      ∀ words' i', Invocation.parse words' = .ok i' →
        i'.command = .apply { a with verify := false } →
        (run build environment words' folder).exitCode = 0 ∧
          (run build environment words' folder).folderAfter folder = folder') ∧
    (∀ source patch output p recovery target, folder.read a.source = .ok source →
      folder.read a.patch = .ok patch →
      (adaptiveApply build.family a.options source patch).result = .ok output →
      Applied build.family a.options source patch recovery target output →
      Patch.parse patch = .ok p → ¬ (p.verifyPatch = .ok () ∧ p.verifyTarget target = .ok ()) →
      (run build environment words folder).exitCode = 1 ∧
        (run build environment words folder).folderAfter folder = folder) ∧
    (∀ patch p, Patch.parse patch = .ok p →
      (p.verifyPatch = .ok () ↔ crc32 (patch.take (patch.length - 4)) = p.footer.patch) ∧
      ∀ target, p.verifyTarget target = .ok () ↔ crc32 target = p.footer.target) ∧
    ∀ family options source patch output,
      (adaptiveApply family options source patch).result = .ok output →
        ∃ p, Patch.parse patch = .ok p := by
  have outcome := applyRun_run folder build environment parsed command
  refine ⟨fun succeeds => ?_, ?_, ?_, fun patch p read => ?_, ?_⟩
  · obtain ⟨source, patch, output, ready, writes⟩ := outcome.exists_written succeeds
    obtain ⟨recovery, target, applied⟩ := exists_applied ready.applied
    obtain ⟨p, read, patchSound, targetSound⟩ := applied.verified_iff.mp (ready.verified verify)
    obtain ⟨p', same, size⟩ := applied.parse
    cases read.symm.trans same
    obtain ⟨front, produced⟩ := applied.cut read
    exact ⟨source, patch, output, p, recovery, target, ready.sourceRead, ready.patchRead,
      ready.applied, applied, Folder.replaces_of_write writes, read, patchSound, targetSound,
      size.symm, produced, front, keptHeader_cases source recovery⟩
  · intro source patch output p recovery target folder' sourceRead patchRead distinct success
      applied read patchSound targetSound writes
    have sound : Verified patch output :=
      applied.verified_iff.mpr ⟨p, read, patchSound, targetSound⟩
    constructor
    · exact outcome.of_ready ⟨sourceRead, patchRead, distinct, success, fun _ => sound⟩ writes
    · intro words' i' parsed' command'
      exact (applyRun_run folder build environment parsed' command').of_ready
        ⟨sourceRead, patchRead, distinct, success, nofun⟩ writes
  · intro source patch output p recovery target sourceRead patchRead success applied read unsound
    refine outcome.of_unverified sourceRead patchRead success verify fun verified => unsound ?_
    obtain ⟨p', read', sound⟩ := applied.verified_iff.mp verified
    cases read.symm.trans read'
    exact sound
  · exact ⟨Patch.verifyPatch_eq_ok_iff read, fun _ => Patch.verifyTarget_eq_ok_iff⟩
  · intro family options source patch output success
    obtain ⟨recovery, target, applied⟩ := exists_applied success
    obtain ⟨p, parsed, -⟩ := applied.parse
    exact ⟨p, parsed⟩

/-- A folder with a dump and a patch. -/
def folderOf (dump patch : Bytes) : Folder :=
  .ofFiles (.ofString "/roms") [(.ofString "dump.nes", dump), (.ofString "hack.bps", patch)]

/-- The letter `a` behind a copier header. -/
def copierDump : Bytes := .replicate copierHeaderSize 0 ++ [0x61]

/-- `hackPatch` with a checksum of its own that is wrong. -/
def damagedPatch : Bytes := hackPatch.dropLast ++ [0]

/-- A program that counts as that of the first revision, under an empty header. -/
def rev0Dump : Bytes := .replicate headerSize 0 ++ [0x38, 0x95, 0x59, 0x67]

/-- A patch that makes of this program, under the header of its dumps, one that counts as the second
revision. -/
def conversionPatch : Bytes :=
  signature ++ [0x94, 0x94, 0x80, 0xBC, 0x8D, 0x45, 0xD4, 0x3E, 0x1E, 0x12, 0xE9, 0xA2, 0x0B, 0x5C,
    0x42, 0xCA, 0xE0, 0xB7, 0xF4, 0x1D, 0x13]

/-- A patch that makes the letter `b` of the second revision. -/
def revAPatch : Bytes :=
  signature ++ [0x94, 0x81, 0x80, 0x81, 0x62, 0x5C, 0x42, 0xCA, 0xE0, 0xF9, 0xEF, 0xBE, 0x71, 0xCD,
    0xA7, 0xDA, 0x4F]

/-- A build with one conversion patch. -/
def convertingBuild : Build :=
  { bareBuild with embedded := { rev0ToRevA := some conversionPatch } }

/-- The copier header is kept in front of the target, which is what is verified; so is the target
behind a conversion that was built in. A patch with another checksum is applied, but not
verified. -/
theorem run_verify_copierHeader :
    ((∃ source patch output p recovery target,
      (folderOf copierDump hackPatch).read (.ofString "dump.nes") = .ok source ∧
      (folderOf copierDump hackPatch).read (.ofString "hack.bps") = .ok patch ∧
      Applied bareBuild.family {} source patch recovery target output ∧
      Patch.parse patch = .ok p ∧ p.verifyPatch = .ok () ∧ p.verifyTarget target = .ok () ∧
      producedPart p output = target) ∧
    (run bareBuild none ["apply", "dump.nes", "hack.bps", "--verify"]
        (folderOf copierDump hackPatch)).folderAfter (folderOf copierDump hackPatch) =
      (run bareBuild none ["apply", "dump.nes", "hack.bps"]
        (folderOf copierDump hackPatch)).folderAfter (folderOf copierDump hackPatch)) ∧
    ((run bareBuild none ["apply", "dump.nes", "hack.bps"]
        (folderOf [0x61] damagedPatch)).exitCode = 0 ∧
      (run bareBuild none ["apply", "dump.nes", "hack.bps", "--verify"]
        (folderOf [0x61] damagedPatch)).exitCode = 1 ∧
      (run bareBuild none ["apply", "dump.nes", "hack.bps", "--verify"]
        (folderOf [0x61] damagedPatch)).folderAfter (folderOf [0x61] damagedPatch) =
          folderOf [0x61] damagedPatch) ∧
    ((run bareBuild none ["apply", "dump.nes", "hack.bps", "--verify"]
        (folderOf rev0Dump revAPatch)).exitCode = 1 ∧
      (run convertingBuild none ["apply", "dump.nes", "hack.bps", "--verify"]
        (folderOf rev0Dump revAPatch)).exitCode = 0 ∧
      ((run convertingBuild none ["apply", "dump.nes", "hack.bps", "--verify"]
        (folderOf rev0Dump revAPatch)).folderAfter (folderOf rev0Dump revAPatch)).read
          (.ofString "hack.nes") = .ok [0x62]) := by
  let arguments : ApplyArguments := .ofOptions "dump.nes" "hack.bps" [.switch .verify]
  have verified : Invocation.parse ["apply", "dump.nes", "hack.bps", "--verify"] =
      .ok { command := .apply arguments } :=
    (@parse_apply "dump.nes" "hack.bps" [] [] [.switch .verify] _ rfl (by decide) (by decide)
      (by decide) (by decide)).trans (if_neg (by decide))
  have plain : Invocation.parse ["apply", "dump.nes", "hack.bps"] =
      .ok { command := .apply { arguments with verify := false } } :=
    (@parse_apply "dump.nes" "hack.bps" [] [] [] _ rfl (by decide) (by decide) nofun
      List.nodup_nil).trans (if_neg (by decide))
  refine ⟨?_, ?_, ?_⟩
  · let output : Bytes := .replicate copierHeaderSize 0 ++ [0x62]
    obtain ⟨stripped, success, patchSound, targetSound⟩ :
        (apply (copierDump.drop copierHeaderSize) hackPatch).result = .ok [0x62] ∧
          (adaptiveApply bareBuild.family {} copierDump hackPatch).result = .ok output ∧
          parsedHack.verifyPatch = .ok () ∧ parsedHack.verifyTarget [0x62] = .ok () := by
      decide +kernel
    have applied : Applied bareBuild.family {} copierDump hackPatch (some .copierHeaderRemoval)
        [0x62] output := ⟨⟨_, .stripped rfl, stripped⟩, by decide +kernel⟩
    obtain ⟨sourceRead, patchRead, writes⟩ :
        (folderOf copierDump hackPatch).read arguments.source = .ok copierDump ∧
          (folderOf copierDump hackPatch).read arguments.patch = .ok hackPatch ∧
          (folderOf copierDump hackPatch).write arguments.outputPath output =
            .ok ((folderOf copierDump hackPatch).put (.ofPath .root (.ofString "/roms/hack.nes"))
              output) := by decide +kernel
    obtain ⟨checks, accepts, -⟩ :=
      @run_verify bareBuild none _ (folderOf copierDump hackPatch) _ _ verified rfl rfl
    obtain ⟨⟨succeeds, kept⟩, same⟩ := accepts copierDump hackPatch output parsedHack _ [0x62] _
      sourceRead patchRead (by decide +kernel) success applied parse_hackPatch patchSound
      targetSound writes
    obtain ⟨source, patch, out, p, recovery, target, first, second, -, third, -, fourth, fifth,
      sixth, -, seventh, -⟩ := checks succeeds
    exact ⟨⟨source, patch, out, p, recovery, target, first, second, third, fourth, fifth, sixth,
      seventh⟩, kept.trans (same _ _ plain rfl).2.symm⟩
  · let damaged : Patch := { parsedHack with
      bytes := damagedPatch, footer.patch := 0x007B94F0, body.rest := damagedPatch.drop 7 }
    obtain ⟨unverified, direct, success, other⟩ :
        (run bareBuild none ["apply", "dump.nes", "hack.bps"]
          (folderOf [0x61] damagedPatch)).exitCode = 0 ∧
        (apply [0x61] damagedPatch).result = .ok [0x62] ∧
        (adaptiveApply bareBuild.family {} [0x61] damagedPatch).result = .ok [0x62] ∧
        crc32 (damagedPatch.take (damagedPatch.length - 4)) ≠ damaged.footer.patch := by
      decide +kernel
    have applied : Applied bareBuild.family {} [0x61] damagedPatch none [0x62] [0x62] :=
      ⟨⟨_, .asIs, direct⟩, rfl⟩
    have read : Patch.parse damagedPatch = .ok damaged := by decide +kernel
    obtain ⟨-, -, refuses, compares, -⟩ :=
      @run_verify bareBuild none _ (folderOf [0x61] damagedPatch) _ _ verified rfl rfl
    refine ⟨unverified, refuses [0x61] damagedPatch [0x62] damaged none [0x62] (by decide +kernel)
      (by decide +kernel) success applied read fun sound => ?_⟩
    exact other ((compares _ _ read).1.mp sound.1)
  · let p : Patch := ⟨revAPatch, 20, 1, [], ⟨0xE0CA425C, 0x71BEEFF9, 0x4FDAA7CD⟩,
      ⟨7, revAPatch.drop 7⟩⟩
    obtain ⟨fails, success, patchSound, targetSound⟩ :
        (run bareBuild none ["apply", "dump.nes", "hack.bps", "--verify"]
          (folderOf rev0Dump revAPatch)).exitCode = 1 ∧
        (adaptiveApply convertingBuild.family {} rev0Dump revAPatch).result = .ok [0x62] ∧
        p.verifyPatch = .ok () ∧ p.verifyTarget [0x62] = .ok () := by decide +kernel
    have read : Patch.parse revAPatch = .ok p := by decide +kernel
    obtain ⟨sourceRead, patchRead, writes⟩ :
        (folderOf rev0Dump revAPatch).read arguments.source = .ok rev0Dump ∧
          (folderOf rev0Dump revAPatch).read arguments.patch = .ok revAPatch ∧
          (folderOf rev0Dump revAPatch).write arguments.outputPath [0x62] =
            .ok ((folderOf rev0Dump revAPatch).put (.ofPath .root (.ofString "/roms/hack.nes"))
              [0x62]) := by decide +kernel
    obtain ⟨recovery, target, applied⟩ := exists_applied success
    have whole : target = [0x62] := (applied.cut read).2.symm
    subst whole
    obtain ⟨-, accepts, -⟩ :=
      @run_verify convertingBuild none _ (folderOf rev0Dump revAPatch) _ _ verified rfl rfl
    obtain ⟨⟨succeeds, kept⟩, -⟩ := accepts rev0Dump revAPatch [0x62] p recovery [0x62] _
      sourceRead patchRead (by decide +kernel) success applied read patchSound targetSound writes
    refine ⟨fails, succeeds, ?_⟩
    rw [kept]
    decide +kernel

end CommandLine

end BeatPatch
