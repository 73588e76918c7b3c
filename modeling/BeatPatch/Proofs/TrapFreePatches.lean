import BeatPatch.Proofs.Headers
import BeatPatch.Proofs.TrapFreeReading

/-!
# Patches without traps

The header and the footer of a patch are read here with each operation as a machine executes it, and
the instructions in a loop that acts on each of them. Reading the header and the footer never traps
(`parse_eq`), and neither does any reading in such a loop: it acts on the results of the stream one
after the other, whatever it does with them (`each_eq`).
-/

namespace BeatPatch

/-- What a walk to the end of the stream meets: its instructions, and then its fault. -/
def Stream.results (s : Stream) : List (Except PatchError Instruction) :=
  s.instructions.map .ok ++ (s.fault.map fun fault => .error fault.error).toList

namespace Trapping

/-! ## Headers and footers -/

/-- The next byte. -/
def readByte : Reading UInt8 := fun c =>
  match c.rest with
  | [] => fail (.outside .patch c.position.toNat 1)
  | byte :: rest => do
    let position ← add c.position 1
    return (byte, ⟨position, rest⟩)

/-- Reads these bytes; a patch that has others there, or ends, is malformed. -/
def readExpected : Bytes → Reading Unit
  | [] => pure ()
  | expected :: others => fun c =>
    match readByte c with
    | .ok (byte, c) => if byte = expected then readExpected others c else fail .malformed
    | .error (.failure _) => fail .malformed
    | .error (.trap t) => trap t

/-- Reads the header. -/
def readHeader : Reading (Nat × Nat × Bytes) := do
  readExpected signature
  let sourceSize ← readWord
  let targetSize ← readWord
  let metadataSize ← readWord
  let metadata ← readBytes metadataSize
  return (sourceSize.toNat, targetSize.toNat, metadata)

/-- The offset at which the instructions of a patch end. -/
def bodyEnd (patch : Bytes) : Trapping UInt64 := sub (UInt64.ofNat patch.length) 12

/-- Where the footer of a patch starts. A patch that is too short for one has it before its first
byte. -/
def footerStart (patch : Bytes) : Trapping UInt64 :=
  if Footer.size ≤ patch.length then bodyEnd patch
  else do
    let start ← addSigned (Int64.ofNat patch.length) (-12)
    fail (.outOfBounds .patch start.toInt Footer.size)

/-- The word stored at `position`. -/
def wordAt (bytes : Bytes) (position : UInt64) : Trapping UInt32 := do
  let a ← byteAt bytes position
  let b ← byteAfter bytes position 1
  let c ← byteAfter bytes position 2
  let d ← byteAfter bytes position 3
  return a.toUInt32 ||| b.toUInt32 <<< 8 ||| c.toUInt32 <<< 16 ||| d.toUInt32 <<< 24

/-- The word stored `distance` bytes past `position`. -/
def wordAfter (bytes : Bytes) (position distance : UInt64) : Trapping UInt32 := do
  let place ← add position distance
  wordAt bytes place

/-- Reads the footer of a patch. -/
def readFooter (patch : Bytes) : Trapping Footer := do
  let start ← footerStart patch
  let source ← wordAt patch start
  let target ← wordAfter patch start 4
  let whole ← wordAfter patch start 8
  return ⟨source, target, whole⟩

/-- The checksum that a patch expects of its dump. -/
def expectedSource (patch : Bytes) : Trapping UInt32 := do
  let start ← footerStart patch
  wordAt patch start

/-- Reads the header and the footer of a patch. -/
def parse (bytes : Bytes) : Trapping Patch := do
  let ((sourceSize, targetSize, metadata), body) ← readHeader (Cursor.start bytes)
  let footer ← readFooter bytes
  return { bytes, sourceSize, targetSize, metadata, footer, body := body.reader }

theorem readByte_cons {position : UInt64} {byte : UInt8} {rest : Bytes}
    (held : Cursor.Held ⟨position, byte :: rest⟩) :
    readByte ⟨position, byte :: rest⟩ = .ok (byte, ⟨position + 1, rest⟩) ∧
      Cursor.Held ⟨position + 1, rest⟩ := by
  have whole : position.toNat + (rest.length + 1) < 2 ^ 63 := held
  have fits : position.toNat + (1 : UInt64).toNat < 2 ^ 64 := by
    show _ + 1 < _
    omega
  have next : (position + 1).toNat = position.toNat + 1 := by
    rw [UInt64.toNat_add]
    exact Nat.mod_eq_of_lt fits
  refine ⟨?_, ?_⟩
  · show (add position 1 >>= _) = _
    rw [add_of_lt fits]
    rfl
  · show (position + 1).toNat + rest.length < 2 ^ 63
    omega

theorem readExpected_eq {expected : Bytes} {c : Cursor} (held : c.Held) :
    readExpected expected c =
      if c.rest.take expected.length = expected then
        .ok ((), ⟨c.position + UInt64.ofNat expected.length, c.rest.drop expected.length⟩)
      else fail .malformed := by
  induction expected generalizing c with
  | nil =>
    show Except.ok ((), c) = _
    simp
  | cons expected others ih =>
    obtain ⟨position, rest⟩ := c
    cases rest with
    | nil => rfl
    | cons byte rest =>
      obtain ⟨read, held'⟩ := readByte_cons held
      rw [readExpected]
      simp only [read, List.length_cons, List.take_succ_cons, List.drop_succ_cons, List.cons.injEq]
      by_cases same : byte = expected
      · rw [if_pos same, ih held']
        have moved : position + 1 + UInt64.ofNat others.length =
            position + UInt64.ofNat (others.length + 1) := by
          rw [UInt64.ofNat_add, UInt64.add_assoc, UInt64.add_comm 1]
          rfl
        simp only [same, true_and, moved]
      · rw [if_neg same, if_neg fun taken => same taken.1]

theorem mirrors_readSignature : Mirrors (readExpected signature) readSignature where
  result c held := by
    rw [readExpected_eq held, readSignature]
    show _ = resume (if c.rest.take signature.length = signature then _ else _)
    split
    · rw [resume]
      simp [Cursor.reader]
    · rfl
  forward _ _ _ _ read := ⟨signature, readSignature_eq_ok_iff.mp read⟩

theorem mirrors_readHeader : Mirrors readHeader Patch.readHeader := by
  unfold readHeader Patch.readHeader Number.read
  simp only [bind_map_left]
  refine mirrors_readSignature.bind fun _ => ?_
  refine mirrors_readWord.bind fun sourceSize => ?_
  refine mirrors_readWord.bind fun targetSize => ?_
  refine mirrors_readWord.bind fun metadataSize => ?_
  exact (mirrors_readBytes metadataSize).bind fun metadata => .pure _

theorem bodyEnd_of_le {patch : Bytes} (held : patch.length < offsetBound)
    (long : Footer.size ≤ patch.length) :
    bodyEnd patch = .ok (UInt64.ofNat (patch.length - Footer.size)) := by
  have enough : 12 ≤ UInt64.ofNat patch.length := by
    rw [UInt64.le_iff_toNat_le, toNat_word held]
    exact long
  rw [bodyEnd, sub_of_le enough, UInt64.ofNat_sub long]
  rfl

theorem toNat_bodyEnd {patch : Bytes} (held : patch.length < offsetBound) :
    (UInt64.ofNat (patch.length - Footer.size)).toNat = patch.length - Footer.size :=
  toNat_word (by omega)

theorem footerStart_eq {patch : Bytes} (held : patch.length < offsetBound) :
    footerStart patch = report ((Footer.start patch).map UInt64.ofNat) := by
  rw [footerStart, Footer.start]
  by_cases long : Footer.size ≤ patch.length
  · rw [if_pos long, if_pos long, bodyEnd_of_le held long]
    rfl
  · have twelve : Footer.size = 12 := rfl
    have size : (Int64.ofNat patch.length).toInt = patch.length := Int64.toInt_ofNat_of_lt held
    have distance : (-12 : Int64).toInt = -12 := rfl
    have low : -offsetBound ≤ (Int64.ofNat patch.length).toInt + (-12 : Int64).toInt := by
      rw [size, distance, offsetBound]
      omega
    have high : (Int64.ofNat patch.length).toInt + (-12 : Int64).toInt < offsetBound := by
      rw [size, distance, offsetBound]
      omega
    obtain ⟨sum, value⟩ := addSigned_of_fits low high
    rw [if_neg long, if_neg long, sum]
    show fail (.outOfBounds .patch (Int64.ofNat patch.length + -12).toInt Footer.size) = _
    rw [value, size, distance]
    rfl

theorem byteAfter_eq {bytes : Bytes} {position distance : UInt64}
    (held : bytes.length < offsetBound)
    (inside : position.toNat + distance.toNat < bytes.length) :
    byteAfter bytes position distance =
      .ok ((bytes.drop position.toNat).getD distance.toNat 0) := by
  have whole : bytes.length < 2 ^ 63 := held
  have fits : position.toNat + distance.toNat < 2 ^ 64 := by omega
  have sum := toNat_add_of_lt fits
  rw [byteAfter, add_of_lt fits]
  show byteAt bytes (position + distance) = _
  rw [byteAt_of_lt (by rw [sum]; exact inside), sum, List.getD_eq_getElem?_getD,
    List.getD_eq_getElem?_getD, List.getElem?_drop]

theorem wordAt_eq {bytes : Bytes} {position : UInt64} (held : bytes.length < offsetBound)
    (inside : position.toNat + 4 ≤ bytes.length) :
    wordAt bytes position = .ok (bytes.wordAt position.toNat) := by
  have first : byteAt bytes position = .ok ((bytes.drop position.toNat).getD 0 0) := by
    rw [byteAt_of_lt (by omega), List.getD_eq_getElem?_getD, List.getD_eq_getElem?_getD,
      List.getElem?_drop, Nat.add_zero]
  rw [wordAt, first, byteAfter_eq held (by show _ + 1 < _; omega),
    byteAfter_eq held (by show _ + 2 < _; omega), byteAfter_eq held (by show _ + 3 < _; omega)]
  rfl

theorem wordAfter_eq {bytes : Bytes} {position distance : UInt64}
    (held : bytes.length < offsetBound)
    (inside : position.toNat + distance.toNat + 4 ≤ bytes.length) :
    wordAfter bytes position distance =
      .ok (bytes.wordAt (position.toNat + distance.toNat)) := by
  have whole : bytes.length < 2 ^ 63 := held
  have fits : position.toNat + distance.toNat < 2 ^ 64 := by omega
  have sum := toNat_add_of_lt fits
  rw [wordAfter, add_of_lt fits]
  show wordAt bytes (position + distance) = _
  rw [wordAt_eq held (by omega), sum]

theorem readFooter_eq {patch : Bytes} (held : patch.length < offsetBound) :
    readFooter patch = report (Footer.read patch) := by
  have word := toNat_bodyEnd held
  rw [readFooter, footerStart_eq held]
  by_cases long : Footer.size ≤ patch.length
  · have twelve : Footer.size = 12 := rfl
    rw [Footer.start_of_le long, Footer.read_of_le long]
    show (wordAt patch (UInt64.ofNat (patch.length - Footer.size)) >>= _) = _
    rw [wordAt_eq held (by omega), wordAfter_eq held (by rw [word]; show _ + 4 + 4 ≤ _; omega),
      wordAfter_eq held (by rw [word]; show _ + 8 + 4 ≤ _; omega), word]
    rfl
  · rw [Footer.read, Footer.start, if_neg long]
    rfl

theorem expectedSource_eq {patch : Bytes} (held : patch.length < offsetBound) :
    expectedSource patch = report (Footer.expectedSource patch) := by
  have word := toNat_bodyEnd held
  rw [expectedSource, footerStart_eq held]
  by_cases long : Footer.size ≤ patch.length
  · have twelve : Footer.size = 12 := rfl
    rw [Footer.start_of_le long, Footer.expectedSource_of_le long]
    show wordAt patch (UInt64.ofNat (patch.length - Footer.size)) = _
    rw [wordAt_eq held (by omega), word]
    rfl
  · rw [Footer.expectedSource, Footer.start, if_neg long]
    rfl

/-- Reading the header and the footer never traps. -/
theorem parse_eq {patch : Bytes} (held : patch.length < offsetBound) :
    parse patch = report (Patch.parse patch) := by
  have start := Cursor.held_start held
  have opening : (Cursor.start patch).reader = Reader.start patch := rfl
  rw [parse, mirrors_readHeader.result _ start, opening, readFooter_eq held, Patch.parse]
  cases header : Patch.readHeader (Reader.start patch) with
  | error e r => rfl
  | ok found body =>
    obtain ⟨sourceSize, targetSize, metadata⟩ := found
    obtain ⟨taken, step⟩ := mirrors_readHeader.forward _ start _ _ header
    obtain ⟨c, same, -, reader⟩ := Cursor.held_of_consumes start step
    rw [resume, ← same]
    subst reader
    exact report_bind fun _ _ => rfl

/-! ## Streams -/

/-- Acts on the instructions before `limit` in turn. One that does not decode is the last. -/
def each {σ : Type} (limit : UInt64) (act : σ → Except PatchError Instruction → Trapping σ)
    (state : σ) (c : Cursor) : Trapping σ :=
  if limit ≤ c.position then return state
  else
    match _read : readInstruction c with
    | .ok (i, c') => do
      let state ← act state (.ok i)
      each limit act state c'
    | .error (.failure e) => act state (.error e)
    | .error (.trap t) => trap t
termination_by c.rest.length
decreasing_by exact readInstruction_rest_lt _read

theorem each_of_le {σ : Type} {limit : UInt64} {c : Cursor} (ended : limit ≤ c.position)
    (act : σ → Except PatchError Instruction → Trapping σ) (state : σ) :
    each limit act state c = .ok state := by
  rw [each, if_pos ended]
  rfl

theorem each_of_ok {σ : Type} {limit : UInt64} {c c' : Cursor} {i : Instruction}
    (before : ¬ limit ≤ c.position) (read : readInstruction c = .ok (i, c'))
    (act : σ → Except PatchError Instruction → Trapping σ) (state : σ) :
    each limit act state c = act state (.ok i) >>= fun state => each limit act state c' := by
  rw [each, if_neg before]
  split <;> rename_i taken <;> rw [read] at taken <;> cases taken
  rfl

theorem each_of_fail {σ : Type} {limit : UInt64} {c : Cursor} {e : PatchError}
    (before : ¬ limit ≤ c.position) (read : readInstruction c = fail e)
    (act : σ → Except PatchError Instruction → Trapping σ) (state : σ) :
    each limit act state c = act state (.error e) := by
  rw [each, if_neg before]
  split <;> rename_i taken <;> rw [read] at taken <;> cases taken
  rfl

/-- No reading in a loop over the instructions traps, and the loop acts on the results of the
stream. -/
theorem each_eq {σ : Type} (act : σ → Except PatchError Instruction → Trapping σ)
    {limit : UInt64} {c : Cursor} (held : c.Held) (state : σ) :
    each limit act state c =
      (Stream.Walk.collect ⟨c.reader, limit.toNat, false⟩).results.foldlM act state := by
  generalize walk : (⟨c.reader, limit.toNat, false⟩ : Stream.Walk) = w
  induction w using Stream.Walk.induction generalizing c state with
  | ended w next =>
    subst walk
    have ended : limit ≤ c.position :=
      UInt64.le_iff_toNat_le.mpr ((Stream.Walk.next?_eq_none_iff.mp next).resolve_left nofun)
    rw [each_of_le ended, Stream.Walk.collect_of_none next]
    rfl
  | fault w e w' next =>
    subst walk
    obtain ⟨-, before⟩ := Stream.Walk.running_of_next? next
    obtain ⟨r, read⟩ := Stream.Walk.exists_read_of_next?_error next
    have running : ¬ limit ≤ c.position := fun ended =>
      Nat.not_le_of_lt before (UInt64.le_iff_toNat_le.mp ended)
    have mirrored : readInstruction c = fail e := by
      rw [mirrors_readInstruction.result c held, read, resume]
    rw [each_of_fail running mirrored, Stream.Walk.collect_of_error next]
    exact (bind_pure _).symm
  | item w i w' next ih =>
    subst walk
    obtain ⟨-, before, r, read, rfl⟩ := Stream.Walk.next?_eq_ok_iff.mp next
    obtain ⟨taken, step⟩ := mirrors_readInstruction.forward c held i r read
    obtain ⟨c', same, held', reader⟩ := Cursor.held_of_consumes held step
    have running : ¬ limit ≤ c.position := fun ended =>
      Nat.not_le_of_lt before (UInt64.le_iff_toNat_le.mp ended)
    have mirrored : readInstruction c = .ok (i, c') := by
      rw [mirrors_readInstruction.result c held, read, resume, ← same]
    rw [each_of_ok running mirrored, Stream.Walk.collect_of_ok next]
    subst reader
    simp only [ih held' _ rfl]
    rfl

/-- Walks over the instructions of a patch to the end. -/
def iterate (p : Patch) : Trapping (List (Except PatchError Instruction)) := do
  let limit ← bodyEnd p.bytes
  let start : Cursor := ⟨UInt64.ofNat p.body.offset, p.body.rest⟩
  each limit (fun results result => return results ++ [result]) [] start

/-- Walking to the end of the instructions never traps. -/
theorem iterate_eq {patch : Bytes} {p : Patch} (held : patch.length < offsetBound)
    (parsed : Patch.parse patch = .ok p) : iterate p = .ok p.stream.results := by
  have start := Cursor.held_start held
  obtain ⟨rfl, header, footer⟩ := Patch.parse_eq_ok_iff.mp parsed
  obtain ⟨taken, step⟩ := mirrors_readHeader.forward _ start _ _ header
  obtain ⟨c, same, held', reader⟩ := Cursor.held_of_consumes start step
  have collected (results : List (Except PatchError Instruction)) :
      results.foldlM (fun found result => (return found ++ [result] : Trapping _)) [] =
        .ok results := by
    rw [List.foldlM_pure, List.foldl_append_eq_append, ← List.flatMap_def, List.flatMap_singleton']
    rfl
  rw [iterate, bodyEnd_of_le held (Footer.size_le_of_read footer), ← same]
  show each _ _ [] c = _
  rw [each_eq _ held', collected, reader, toNat_bodyEnd held]
  rfl

end Trapping

end BeatPatch
