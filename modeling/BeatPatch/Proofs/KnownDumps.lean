import BeatPatch.Proofs.Attempts
import BeatPatch.Proofs.Checksums

/-!
# Known dumps under other headers

The checksum of a dump is determined by its header, the checksum of its program and its size. So
a dump with the required program passes the gate once it has the required header
(`adaptiveApply_of_otherHeader`), even if its program only has the checksum of the required one.
A dump of the other revision is first converted, and the patch then does what it does to the
genuine dump of the required revision (`adaptiveApply_of_otherRevision`).
-/

namespace BeatPatch

namespace Version

variable {v : Version} {source dump : Bytes}

/-- The version has the header of the dump and the checksum of its program. -/
structure Describes (v : Version) (dump : Bytes) : Prop where
  long : headerSize ≤ dump.length
  header : v.header.toList = dump.take headerSize
  program : v.programChecksum = BeatPatch.programChecksum dump

@[simp] theorem length_reheader (v : Version) (dump : Bytes) :
    (v.reheader dump).length = dump.length := by
  rw [reheader, List.length_append, List.length_take, List.length_drop, Vector.length_toList]
  omega

theorem reheader_of_le (long : headerSize ≤ dump.length) :
    v.reheader dump = v.header.toList ++ dump.drop headerSize := by
  rw [reheader, List.take_of_length_le (by rw [Vector.length_toList]; exact long)]

/-- The header of a dump in front of its program is the dump. -/
theorem Describes.reheader_eq (describes : v.Describes dump) (long : headerSize ≤ source.length)
    (same : source.drop headerSize = dump.drop headerSize) : v.reheader source = dump := by
  rw [reheader_of_le long, describes.header, same, List.take_append_drop]

/-- The header of a dump in front of a program of the same size and checksum makes a dump of the
same checksum. -/
theorem Describes.crc32_reheader (describes : v.Describes dump)
    (size : source.length = dump.length)
    (program : BeatPatch.programChecksum source = BeatPatch.programChecksum dump) :
    crc32 (v.reheader source) = crc32 dump := by
  have tails : (source.drop headerSize).length = (dump.drop headerSize).length := by
    rw [List.length_drop, List.length_drop, size]
  rw [reheader_of_le (size ▸ describes.long), crc32_append, tails,
    show crc32 (source.drop headerSize) = crc32 (dump.drop headerSize) from program,
    describes.header, ← crc32_append, List.take_append_drop]

end Version

section Known

variable {family : Family} {options : RecoveryOptions} {source patch dump : Bytes}

/-- Applying a patch to a dump that it fits is never given up. -/
theorem attempt_of_fits (fits : Patch.Fits patch dump) (recovery : Recovery) :
    (attempt recovery (apply dump patch)).result = (apply dump patch).result.map some :=
  attempt_of_decisive fun _ => fits.isWrongInput_eq_false

/-- A repair of a rejected dump decides, with a target or with a failure. -/
theorem adaptiveApply_of_repaired {result : Except PatchError Bytes}
    (allowed : options.knownDumps = true) (rejects : Patch.Rejects patch source)
    (repaired : (repairKnownDump family source patch).result = result.map some) :
    (adaptiveApply family options source patch).result = result := by
  obtain ⟨misfit, failed, wrong⟩ := rejects
  rw [adaptiveApply_of_misfit failed wrong, tryRepairs_eq, orThen_result, ifAllowed,
    if_pos allowed, repaired]
  cases result <;> rfl

variable {required : Version}

theorem Patch.Fits.requires (fits : Patch.Fits patch dump)
    (known : family.lookup (crc32 dump) = some required) : family.Requires patch required :=
  ⟨crc32 dump, fits.checksum, known⟩

/-- A dump with the required program under another header is repaired, and the repaired dump
passes the gate. If the program is not only of the required checksum but the required one, the
result is that for the known dump, whatever the header was. -/
theorem adaptiveApply_of_otherHeader (known : family.lookup (crc32 dump) = some required)
    (describes : required.Describes dump) (fits : Patch.Fits patch dump)
    (allowed : options.knownDumps = true) (size : source.length = dump.length)
    (program : programChecksum source = programChecksum dump) (other : crc32 source ≠ crc32 dump) :
    crc32 (required.reheader source) = crc32 dump ∧
      (adaptiveApply family options source patch).result =
        (apply (required.reheader source) patch).result ∧
      (∀ e, (apply (required.reheader source) patch).result = .error e →
        e.isWrongInput = false) ∧
      (source.drop headerSize = dump.drop headerSize →
        (adaptiveApply family options source patch).result = (apply dump patch).result) := by
  have sum := describes.crc32_reheader size program
  have passes : Patch.Fits patch (required.reheader source) :=
    ⟨by rw [Version.length_reheader, size, fits.size], by rw [sum, fits.checksum]⟩
  have found : Repair.find family source patch = .reheader required :=
    Repair.find_eq_reheader_iff.mpr ⟨fits.requires known, program.trans describes.program.symm⟩
  have repaired : (repairKnownDump family source patch).result =
      (apply (required.reheader source) patch).result.map some := by
    rw [repairKnownDump, found, ← attempt_of_fits passes .headerRepair]
    rfl
  have result := adaptiveApply_of_repaired allowed (fits.misfit fun same => other same.2) repaired
  refine ⟨sum, result, fun e => passes.isWrongInput_eq_false, fun same => ?_⟩
  rw [result, describes.reheader_eq (size ▸ describes.long) same]

/-- A dump of the letters from `a` to `e` under a header that is filled with `A`. -/
def letters : Version where
  name := "letters"
  revision := .rev0
  programChecksum := 0x8587D865
  header := .replicate headerSize 0x41

/-- The letters under their own header, under another one, and five other bytes with the checksum
of the letters: all three get past the gate. -/
theorem adaptiveApply_of_otherHeader_letters :
    let family : Family := ⟨"letters", [(0xA4B501C0, letters)], []⟩
    let dump := List.replicate headerSize 0x41 ++ [0x61, 0x62, 0x63, 0x64, 0x65]
    let stranger := List.replicate headerSize 0 ++ [0x61, 0x62, 0x63, 0x64, 0x65]
    let twin := List.replicate headerSize 0 ++ [0xA2, 0x68, 0xF0, 0x09, 0x67]
    let patch := signature ++ [0x95, 0x83, 0x80, 0x8A, 0x9E, 0xC0, 0x01, 0xB5, 0xA4] ++
      List.replicate 8 0
    (adaptiveApply family {} stranger patch).result = (apply dump patch).result ∧
      crc32 (letters.reheader twin) = crc32 dump ∧
      (adaptiveApply family {} twin patch).result =
        (apply (letters.reheader twin) patch).result := by
  intro family dump stranger twin patch
  have sum : crc32 dump = 0xA4B501C0 := by rw [crc32_eq_foldl]; decide +kernel
  have other : crc32 stranger = 0x02A1EAF3 := by rw [crc32_eq_foldl]; decide +kernel
  have other' : crc32 twin = 0x02A1EAF3 := by rw [crc32_eq_foldl]; decide +kernel
  have program : programChecksum dump = 0x8587D865 := by
    rw [programChecksum, crc32_eq_foldl]; decide +kernel
  have program' : programChecksum twin = 0x8587D865 := by
    rw [programChecksum, crc32_eq_foldl]; decide +kernel
  have known : family.lookup (crc32 dump) = some letters := by rw [sum]; rfl
  have describes : letters.Describes dump := ⟨by decide, by decide, program.symm⟩
  have fits : Patch.Fits patch dump := ⟨by decide +kernel, by rw [sum]; decide⟩
  obtain ⟨-, -, -, genuine⟩ := @adaptiveApply_of_otherHeader family {} stranger patch dump
    letters known describes fits rfl rfl rfl (by rw [sum, other]; decide)
  obtain ⟨same, result, -, -⟩ := @adaptiveApply_of_otherHeader family {} twin patch dump
    letters known describes fits rfl rfl (program'.trans program.symm)
    (by rw [sum, other']; decide)
  exact ⟨genuine rfl, same, result⟩

/-- A dump of the other revision, under any header, is converted, and the result is that for the
genuine dump of the required revision: the conversion patch has to be for the program of `old`
under the canonical header of its revision and to make the program of `new` of it, under whatever
header. The one exception is a dump that the patch fits as it is. -/
theorem adaptiveApply_of_otherRevision {old new conversion output : Bytes} {canonical : Version}
    {revision : Revision} (known : family.lookup (crc32 new) = some required)
    (describes : required.Describes new) (different : revision ≠ required.revision)
    (first : family.canonical revision = some canonical) (describesOld : canonical.Describes old)
    (programs : canonical.programChecksum ≠ required.programChecksum)
    (available : family.conversion revision required.revision = some conversion)
    (converted : (apply old conversion).result = .ok output)
    (size : output.length = new.length) (program : output.drop headerSize = new.drop headerSize)
    (fits : Patch.Fits patch new) (long : headerSize ≤ source.length)
    (same : source.drop headerSize = old.drop headerSize)
    (other : ¬ (source.length = new.length ∧ crc32 source = crc32 new))
    (allowed : options.knownDumps = true) :
    (adaptiveApply family options source patch).result = (apply new patch).result := by
  obtain ⟨listed, rfl⟩ := Family.of_canonical first
  have sum : canonical.programChecksum = programChecksum source := by
    rw [describesOld.program, programChecksum, programChecksum, same]
  have converts : family.Converts source canonical required conversion :=
    ⟨sum ▸ programs, ⟨canonical, listed, rfl, sum⟩, different, first, available⟩
  obtain ⟨current, found⟩ :=
    Repair.find_eq_convert_iff.mpr ⟨fits.requires known, converts⟩
  -- the two reheaderings give the dumps that the conversion patch and the patch are for
  have before : canonical.reheader source = old := describesOld.reheader_eq long same
  have behind : required.reheader output = new :=
    describes.reheader_eq (size ▸ describes.long) program
  have repaired : (repairKnownDump family source patch).result =
      (apply new patch).result.map some := by
    simp only [repairKnownDump, found, Logged.bind_result, Logged.note_result, before,
      attempt_of_ok converted]
    show (attempt .revisionConversion (apply (required.reheader output) patch)).result = _
    rw [behind, attempt_of_fits fits]
  exact adaptiveApply_of_repaired allowed (fits.misfit other) repaired

/-- A patch that keeps a header and puts two bytes behind it for the byte that was there. -/
def shortConversion : Bytes :=
  signature ++ [0x91, 0x92, 0x80, 0xBC, 0x85, 2, 2, 0x05, 0x0C, 0x59, 0x4C, 0, 0, 0, 0, 0, 0, 0, 0]

/-- Two short dumps. The second has another revision of the program, of two bytes instead of one,
under another header. -/
theorem adaptiveApply_of_otherRevision_short :
    let first : Version := ⟨"first", .rev0, 0xA505DF1B, .replicate headerSize 0x50⟩
    let second : Version := ⟨"second", .revA, 0x9DE11151, .replicate headerSize 0x41⟩
    let family : Family := ⟨"short", [(0x4C590C05, first), (0x8B1AB7C9, second)],
      [⟨.rev0, .revA, some shortConversion⟩]⟩
    let new := List.replicate headerSize 0x41 ++ [2, 2]
    let patch := signature ++ [0x92, 0x83, 0x80, 0x8A, 0x9E, 0xC9, 0xB7, 0x1A, 0x8B] ++
      List.replicate 8 0
    (adaptiveApply family {} (List.replicate headerSize 0 ++ [1]) patch).result =
      (apply new patch).result := by
  intro first second family new patch
  let old : Bytes := List.replicate headerSize 0x50 ++ [1]
  have oldSum : crc32 old = 0x4C590C05 := by rw [crc32_eq_foldl]; decide +kernel
  have newSum : crc32 new = 0x8B1AB7C9 := by rw [crc32_eq_foldl]; decide +kernel
  have oldProgram : programChecksum old = 0xA505DF1B := by
    rw [programChecksum, crc32_eq_foldl]; decide +kernel
  have newProgram : programChecksum new = 0x9DE11151 := by
    rw [programChecksum, crc32_eq_foldl]; decide +kernel
  have admitted : Admission.check old shortConversion =
      .ok ⟨18, 0, ⟨7, shortConversion.drop 7⟩⟩ :=
    Admission.check_eq_ok_iff.mpr ⟨⟨[], rfl, rfl⟩, by rw [oldSum]; decide⟩
  have converted : (apply old shortConversion).result =
      .ok (List.replicate headerSize 0x50 ++ [2, 2]) := by
    rw [apply_result_of_lt admitted (by decide)]
    decide +kernel
  have fits : Patch.Fits patch new := ⟨by decide +kernel, by rw [newSum]; decide⟩
  exact @adaptiveApply_of_otherRevision family {} _ patch second old new shortConversion _ first
    .rev0 (by rw [newSum]; rfl) ⟨by decide, by decide, newProgram.symm⟩ (by decide) rfl
    ⟨by decide, by decide, oldProgram.symm⟩ (by decide) rfl converted rfl rfl fits (by decide) rfl
    (by decide) rfl

end Known

end BeatPatch
