import BeatPatch.Proofs.Headers
import BeatPatch.Proofs.Streams

/-!
# Assembling and parsing

Parsing undoes assembling: an assembled patch is read back whole, down to each literal byte, and
passes its own checks (`parse_assemble`). Assembling undoes parsing: bytes that are read up to
the footer without a fault are the spelling of what was read, so that the format has one
spelling for each meaning (`spell_of_readWhole`).
-/

namespace BeatPatch.Patch

/-- The bytes of a patch with these parts. -/
def spell (sourceSize targetSize : Nat) (metadata : Bytes) (instructions : List Instruction)
    (footer : Footer) : Bytes :=
  encodeHeader sourceSize targetSize metadata ++ instructions.flatMap Instruction.encode ++
    footer.encode

section Spelled

variable {sourceSize targetSize : Nat} {metadata : Bytes} {is : List Instruction} {f : Footer}

/-- The spelling of encodable parts is parsed into these parts, and its instructions are read up
to the footer. -/
theorem parse_spell (source : sourceSize < Number.bound) (target : targetSize < Number.bound)
    (size : metadata.length < Number.bound) (sound : ∀ i ∈ is, i.Encodable) :
    ∃ p, parse (spell sourceSize targetSize metadata is f) = .ok p ∧ p.sourceSize = sourceSize ∧
      p.targetSize = targetSize ∧ p.metadata = metadata ∧ p.footer = f ∧
      p.stream.instructions = is ∧ p.stream.fault = none ∧
      p.stream.rest.position =
        (spell sourceSize targetSize metadata is f).length - Footer.size := by
  let header := encodeHeader sourceSize targetSize metadata
  let code := is.flatMap Instruction.encode
  let bytes := spell sourceSize targetSize metadata is f
  let body : Reader := ⟨header.length, code ++ f.encode⟩
  let last : Reader := ⟨header.length + code.length, f.encode⟩
  have opening : (Reader.start bytes).Consumes header body :=
    ⟨List.append_assoc .., (Nat.zero_add _).symm⟩
  have steps : body.Consumes code last := ⟨rfl, rfl⟩
  have limit : bytes.length - Footer.size = last.offset := by
    rw [show bytes = header ++ code ++ f.encode from rfl, Footer.start_append, List.length_append]
  let p : Patch := ⟨bytes, sourceSize, targetSize, metadata, f, body⟩
  have parsed : parse bytes = .ok p :=
    parse_eq_ok_iff.mpr ⟨rfl, readHeader_eq_ok_iff.mpr ⟨source, target, size, opening⟩,
      Footer.read_append (header ++ code) f⟩
  obtain ⟨items, same, walked⟩ := Stream.Walk.collect_of_consumes sound steps
  have stream : p.stream = ⟨items, none, { reader := last, limit := last.offset }⟩ := by
    rw [Patch.stream, walk, ← walked, ← limit]
  refine ⟨p, parsed, rfl, rfl, rfl, rfl, ?_, ?_, ?_⟩
  · rw [stream]; exact same
  · rw [stream]
  · rw [stream]; exact limit.symm

end Spelled

/-! ## Parsing what was assembled -/

/-- All of an assembled patch before its own checksum. -/
def unchecked (source metadata : Bytes) (is : List Instruction) (target : Bytes) : Bytes :=
  encodeHeader source.length target.length metadata ++ is.flatMap Instruction.encode ++
    Bytes.ofWord (crc32 source) ++ Bytes.ofWord (crc32 target)

/-- The footer of an assembled patch. -/
def checksums (source metadata : Bytes) (is : List Instruction) (target : Bytes) : Footer :=
  ⟨crc32 source, crc32 target, crc32 (unchecked source metadata is target)⟩

theorem spell_checksums (source metadata : Bytes) (is : List Instruction) (target : Bytes) :
    spell source.length target.length metadata is (checksums source metadata is target) =
      withChecksum (unchecked source metadata is target) := by
  simp only [spell, withChecksum, unchecked, Footer.encode, checksums, List.append_assoc]

/-- Instructions that all produce a byte are assembled. -/
theorem assemble_eq_spell {source metadata target : Bytes} {is : List Instruction}
    (runs : ∀ i ∈ is, 1 ≤ i.length) :
    assemble source metadata is target = .ok
      (spell source.length target.length metadata is (checksums source metadata is target)) := by
  have none : ¬ is.any (·.length = 0) = true := by
    rw [List.any_eq_true]
    rintro ⟨i, mem, empty⟩
    have := runs i mem
    simp only [decide_eq_true_eq] at empty
    omega
  rw [assemble, if_neg none, spell_checksums]
  rfl

/-- A patch whose last word is the checksum of all before it passes its own check. -/
theorem verifyPatch_of_withChecksum {p : Patch} {bytes : Bytes}
    (whole : p.bytes = withChecksum bytes) (stored : p.footer.patch = crc32 bytes) :
    p.verifyPatch = .ok () := by
  have front : p.bytes.take (p.bytes.length - 4) = bytes := by
    rw [whole, withChecksum, List.length_append, Bytes.length_ofWord, Nat.add_sub_cancel,
      List.take_left]
  rw [verifyPatch, front, stored]
  exact if_pos rfl

/-- An assembled patch is parsed into the sizes of the dump and of the target, the metadata and
the checksums of both; its instructions are read back without a fault, in order and to the last
byte before the footer; and it passes its own checks. The lengths of byte strings are taken to
fit in 64 bits. -/
theorem parse_assemble {source metadata target : Bytes} {steps : List Instruction}
    (sourceFits : source.length < Number.bound) (targetFits : target.length < Number.bound)
    (metadataFits : metadata.length < Number.bound) (encodable : ∀ i ∈ steps, i.Encodable) :
    ∃ bytes p, assemble source metadata steps target = .ok bytes ∧ parse bytes = .ok p ∧
      p.sourceSize = source.length ∧ p.targetSize = target.length ∧ p.metadata = metadata ∧
      p.footer.source = crc32 source ∧ p.footer.target = crc32 target ∧
      p.stream.instructions = steps ∧ p.stream.fault = none ∧
      p.stream.rest.position = bytes.length - Footer.size ∧
      p.verifyPatch = .ok () ∧ p.verifyTarget target = .ok () ∧
      Footer.expectedSource bytes = .ok (crc32 source) := by
  obtain ⟨p, parsed, sourceSize, targetSize, block, footer, instructions, fault, ends⟩ :=
    parse_spell (f := checksums source metadata steps target) sourceFits targetFits metadataFits
      encodable
  have bytes := (parse_eq_ok_iff.mp parsed).1
  refine ⟨_, p, assemble_eq_spell fun i mem => (encodable i mem).nonempty, parsed, sourceSize,
    targetSize, block, ?_, ?_, instructions, fault, ends, ?_, ?_, ?_⟩
  · rw [footer]; rfl
  · rw [footer]; rfl
  · exact verifyPatch_of_withChecksum (bytes.trans (spell_checksums ..)) (by rw [footer]; rfl)
  · rw [verifyTarget, footer]
    exact if_pos rfl
  · exact Footer.expectedSource_append _ _

/-- Runs and moves at the limits of the format, and a literal that looks like a patch. -/
theorem parse_assemble_limits :
    let steps := [.sourceRead (2 ^ 62), .targetRead (signature ++ [0x80, 0x81]),
      .sourceCopy 1 (1 - 2 ^ 63), .targetCopy (2 ^ 62) (2 ^ 63 - 1)]
    (∀ i ∈ steps, i.Encodable) ∧ ∃ bytes p,
      assemble [0x61, 0x62] signature steps [0x61] = .ok bytes ∧ parse bytes = .ok p ∧
      p.metadata = signature ∧ p.stream.instructions = steps ∧ p.verifyPatch = .ok () := by
  intro steps
  have encodable : ∀ i ∈ steps, i.Encodable := by decide
  obtain ⟨bytes, p, assembled, parsed, -, -, metadata, -, -, instructions, -, -, verified, -, -⟩ :=
    @parse_assemble [0x61, 0x62] signature [0x61] steps (by decide) (by decide) (by decide)
      encodable
  exact ⟨encodable, bytes, p, assembled, parsed, metadata, instructions, verified⟩

/-! ## Assembling what was parsed -/

/-- The patch was parsed from these bytes, and its instructions are read without a fault up to
the footer, none of them spelled with a negative zero. -/
structure ReadWhole (bytes : Bytes) (p : Patch) : Prop where
  parsed : parse bytes = .ok p
  sound : p.stream.fault = none
  ends : p.stream.rest.position = bytes.length - Footer.size
  plain : ∀ item ∈ p.stream.items, ¬ item.NegativeZero bytes

theorem ReadWhole.spell_eq {bytes : Bytes} {p : Patch} (whole : ReadWhole bytes p) :
    spell p.sourceSize p.targetSize p.metadata p.stream.instructions p.footer = bytes := by
  obtain ⟨rfl, header, footer⟩ := parse_eq_ok_iff.mp whole.parsed
  obtain ⟨-, -, -, opening⟩ := readHeader_eq_ok_iff.mp header
  have on : p.body.On p.bytes := opening.on (Reader.on_start p.bytes)
  have code : p.body.Consumes (p.stream.instructions.flatMap Instruction.encode)
      p.stream.rest.reader :=
    Stream.Walk.consumes_of_collect on whole.sound whole.plain
  have last : p.stream.rest.reader.rest = p.footer.encode := by
    rw [Footer.encode_of_read footer, (code.on on).rest]
    exact congrArg p.bytes.drop whole.ends
  have start : p.bytes = _ := (opening.trans code).rest
  rw [last] at start
  exact start.symm

/-- A patch that is read whole is the spelling of what was read. So two such patches with the
same header, footer and instructions are the same bytes. -/
theorem spell_of_readWhole {bytes : Bytes} {p : Patch} (whole : ReadWhole bytes p) :
    spell p.sourceSize p.targetSize p.metadata p.stream.instructions p.footer = bytes ∧
      ∀ {bytes' p'}, ReadWhole bytes' p' → p'.sourceSize = p.sourceSize →
        p'.targetSize = p.targetSize → p'.metadata = p.metadata → p'.footer = p.footer →
        p'.stream.instructions = p.stream.instructions → bytes' = bytes := by
  refine ⟨whole.spell_eq, fun whole' source target metadata footer instructions => ?_⟩
  rw [← whole'.spell_eq, source, target, metadata, footer, instructions, whole.spell_eq]

/-- One instruction of each action, with the byte of negative zero in the metadata, in a literal
and at the end of a longer number. -/
def eachAction : Bytes :=
  signature ++ [0x84, 0x8E, 0x81, 0x81, 0x8C, 0x85, 0x81, 0x62, 0x8E, 0x84, 0x8F, 0x01, 0x81,
    1, 2, 3, 4, 5, 6, 7, 8, 9, 10, 11, 12]

theorem spell_of_readWhole_eachAction :
    let steps := [.sourceRead 4, .targetRead [0x81, 0x62], .sourceCopy 4 2, .targetCopy 4 (-128)]
    let footer : Footer := ⟨0x04030201, 0x08070605, 0x0C0B0A09⟩
    ∃ p, ReadWhole eachAction p ∧ p.stream.instructions = steps ∧
      spell 4 14 [0x81] steps footer = eachAction := by
  intro steps footer
  let p : Patch := ⟨eachAction, 4, 14, [0x81], footer, ⟨8, eachAction.drop 8⟩⟩
  have instructions : p.stream.instructions = steps := by decide +kernel
  have whole : ReadWhole eachAction p :=
    ⟨by decide, by decide +kernel, by decide +kernel, by decide +kernel⟩
  refine ⟨p, whole, instructions, ?_⟩
  rw [← instructions]
  exact (spell_of_readWhole whole).1

end BeatPatch.Patch
