import BeatPatch.Proofs.Damage
import BeatPatch.Proofs.Refinement
import BeatPatch.Proofs.TrapFreePatches

/-!
# Runs without traps

The machine is written down once more with each access to a buffer, each sum behind a run and the
request for the target as a machine executes it. The checks in front of them stay as they are: they
compare exact positions, and report. They are enough, so that an instruction (`execute_eq`) and a
run (`foldlM_executeResult`) never trap. Applying a patch traps in one case only, an admitted patch
that declares a target which cannot be held (`apply_eq_trap_iff`).
-/

namespace BeatPatch.Trapping

/-! ## Buffers -/

/-- The bytes of a buffer in a range. -/
def slice (buffer : Array UInt8) (start length : Nat) : Trapping Bytes :=
  if start + length ≤ buffer.size then .ok (Machine.slice buffer start length) else trap .access

/-- Copies bytes over a range of a buffer, which has to be as long as they are. -/
def overwrite (buffer : Array UInt8) (start length : Nat) (data : Bytes) :
    Trapping (Array UInt8) :=
  if start + length ≤ buffer.size ∧ data.length = length then .ok (Machine.place buffer start data)
  else trap .access

/-- Writes a byte into a buffer. -/
def store (buffer : Array UInt8) (position : Nat) (byte : UInt8) : Trapping (Array UInt8) :=
  if position < buffer.size then .ok (buffer.setIfInBounds position byte) else trap .access

/-- Copies `n` bytes of the target to `position` and on, one at a time. The next is `distance`
bytes past `start`. -/
def copyWithin (target : Array UInt8) (start distance : UInt64) (position : Nat) :
    Nat → Trapping (Array UInt8)
  | 0 => .ok target
  | n + 1 => do
    let place ← add start distance
    let byte ← orTrap .access target[place.toNat]?
    let target ← store target position byte
    copyWithin target start (distance + 1) (position + 1) n

/-- Asks for a buffer. No more bytes can be held than a signed word can count. -/
def reserve (size : Nat) : Trapping Unit :=
  if size < offsetBound then .ok () else trap (.allocation size)

/-- Executes one instruction. -/
def execute (source : Array UInt8) : Machine → Instruction → Trapping Machine
  | ⟨target, output, sourceCursor, targetCursor⟩, .sourceRead length => do
    report (Machine.checkRange .source source.size output.toNat length)
    report (Machine.checkRange .target target.size output.toNat length)
    let run ← slice source output.toNat length
    let target ← overwrite target output.toNat length run
    let output ← add output (UInt64.ofNat length)
    return ⟨target, output, sourceCursor, targetCursor⟩
  | ⟨target, output, sourceCursor, targetCursor⟩, .targetRead data => do
    report (Machine.checkRange .target target.size output.toNat data.length)
    let target ← overwrite target output.toNat data.length data
    let output ← add output (UInt64.ofNat data.length)
    return ⟨target, output, sourceCursor, targetCursor⟩
  | ⟨target, output, sourceCursor, targetCursor⟩, .sourceCopy length move => do
    let start ← report (Machine.moveCursor .source sourceCursor move length)
    report (Machine.checkRange .source source.size start length)
    report (Machine.checkRange .target target.size output.toNat length)
    let run ← slice source start length
    let target ← overwrite target output.toNat length run
    let sourceCursor ← addSigned (Int64.ofNat start) (Int64.ofNat length)
    let output ← add output (UInt64.ofNat length)
    return ⟨target, output, sourceCursor, targetCursor⟩
  | ⟨target, output, sourceCursor, targetCursor⟩, .targetCopy length move => do
    let start ← report (Machine.moveCursor .target targetCursor move length)
    report (Machine.checkRange .target target.size start length)
    report (Machine.checkRange .target target.size output.toNat length)
    let target ← copyWithin target (UInt64.ofNat start) 0 output.toNat length
    let targetCursor ← addSigned (Int64.ofNat start) (Int64.ofNat length)
    let output ← add output (UInt64.ofNat length)
    return ⟨target, output, sourceCursor, targetCursor⟩

theorem slice_of_le {buffer : Array UInt8} {start length : Nat}
    (inside : start + length ≤ buffer.size) :
    slice buffer start length = .ok (Machine.slice buffer start length) :=
  if_pos inside

theorem overwrite_of_le {buffer : Array UInt8} {start length : Nat} {data : Bytes}
    (inside : start + length ≤ buffer.size) (size : data.length = length) :
    overwrite buffer start length data = .ok (Machine.place buffer start data) :=
  if_pos ⟨inside, size⟩

theorem length_slice {buffer : Array UInt8} {start length : Nat}
    (inside : start + length ≤ buffer.size) :
    (Machine.slice buffer start length).length = length := by
  rw [Machine.length_slice]
  omega

theorem copyWithin_eq {target : Array UInt8} {start distance : UInt64} {position n : Nat}
    (small : target.size < offsetBound) (read : start.toNat + distance.toNat + n ≤ target.size)
    (write : position + n ≤ target.size) :
    copyWithin target start distance position n =
      .ok (Machine.copyWithin target (start.toNat + distance.toNat) position n) := by
  have whole : target.size < 2 ^ 63 := small
  induction n generalizing target distance position with
  | zero => rfl
  | succ n ih =>
    have fits : start.toNat + distance.toNat < 2 ^ 64 := by omega
    have place := toNat_add_of_lt fits
    have next : (distance + 1).toNat = distance.toNat + 1 :=
      toNat_add_of_lt (by show _ + 1 < _; omega)
    have inside : start.toNat + distance.toNat < target.size := by omega
    rw [copyWithin, add_of_lt fits]
    show (orTrap .access target[(start + distance).toNat]? >>= _) = _
    rw [place, Array.getElem?_eq_getElem inside]
    show (store target position target[start.toNat + distance.toNat] >>= _) = _
    rw [store, if_pos (by omega)]
    show copyWithin _ start (distance + 1) (position + 1) n = _
    rw [ih (by simpa using small) (by rw [next, Array.size_setIfInBounds]; omega)
      (by rw [Array.size_setIfInBounds]; omega) (by simpa using whole), next]
    simp [Machine.copyWithin, Array.getD, inside, Nat.add_assoc]

/-! ## Instructions -/

variable {source : Array UInt8}

theorem cursorAfter_eq {start length : Nat} {buffer : Array UInt8}
    (small : buffer.size < offsetBound) (inside : start + length ≤ buffer.size) :
    addSigned (Int64.ofNat start) (Int64.ofNat length) =
      .ok (Machine.cursorAfter start length) := by
  have whole : buffer.size < 2 ^ 63 := small
  have first : (Int64.ofNat start).toInt = start := Int64.toInt_ofNat_of_lt (by omega)
  have second : (Int64.ofNat length).toInt = length := Int64.toInt_ofNat_of_lt (by omega)
  exact (addSigned_of_fits (by rw [first, second, offsetBound]; omega)
    (by rw [first, second, offsetBound]; omega)).1

theorem outputAfter_eq {output : UInt64} {length : Nat} {target : Array UInt8}
    (small : target.size < offsetBound) (inside : output.toNat + length ≤ target.size) :
    add output (UInt64.ofNat length) = .ok (Machine.outputAfter output length) := by
  have whole : target.size < 2 ^ 63 := small
  have word : (UInt64.ofNat length).toNat = length := toNat_word (by omega)
  exact add_of_lt (by rw [word]; omega)

/-- The checks in front of an instruction are enough for all that follows them. -/
theorem execute_eq {m : Machine} (sourceSmall : source.size < offsetBound)
    (small : m.target.size < offsetBound) (i : Instruction) :
    execute source m i = report (Machine.execute source m i) := by
  obtain ⟨target, output, sourceCursor, targetCursor⟩ := m
  cases i with
  | sourceRead length =>
    refine report_bind fun _ readable => report_bind fun _ writable => ?_
    have readable := Machine.checkRange_eq_ok_iff.mp readable
    have writable := Machine.checkRange_eq_ok_iff.mp writable
    rw [slice_of_le readable]
    show (overwrite target output.toNat length _ >>= _) = _
    rw [overwrite_of_le writable (length_slice readable), outputAfter_eq small writable]
    rfl
  | targetRead data =>
    refine report_bind fun _ writable => ?_
    have writable := Machine.checkRange_eq_ok_iff.mp writable
    rw [overwrite_of_le writable rfl, outputAfter_eq small writable]
    rfl
  | sourceCopy length move =>
    refine report_bind fun start _ => report_bind fun _ readable => report_bind fun _ writable => ?_
    have readable := Machine.checkRange_eq_ok_iff.mp readable
    have writable := Machine.checkRange_eq_ok_iff.mp writable
    rw [slice_of_le readable]
    show (overwrite target output.toNat length _ >>= _) = _
    rw [overwrite_of_le writable (length_slice readable), cursorAfter_eq sourceSmall readable,
      outputAfter_eq small writable]
    rfl
  | targetCopy length move =>
    refine report_bind fun start _ => report_bind fun _ readable => report_bind fun _ writable => ?_
    have readable := Machine.checkRange_eq_ok_iff.mp readable
    have writable := Machine.checkRange_eq_ok_iff.mp writable
    have word : (UInt64.ofNat start).toNat = start := toNat_word (by dsimp only at small; omega)
    have read : (UInt64.ofNat start).toNat + (0 : UInt64).toNat + length ≤ target.size := by
      rw [word]
      exact readable
    have copied := copyWithin_eq small read writable
    rw [word] at copied
    rw [copied, cursorAfter_eq small readable, outputAfter_eq small writable]
    rfl

/-! ## Runs -/

/-- Goes on with the result of a reading: an instruction is executed, a failure ends the run. -/
def executeResult (source : Array UInt8) (m : Machine) :
    Except PatchError Instruction → Trapping Machine
  | .ok i => execute source m i
  | .error e => fail e

theorem foldlM_execute (sourceSmall : source.size < offsetBound) {m : Machine}
    (small : m.target.size < offsetBound) (is : List Instruction) :
    (is.map Except.ok).foldlM (executeResult source) m =
      report (is.foldlM (Machine.execute source) m) := by
  induction is generalizing m with
  | nil => rfl
  | cons i rest ih =>
    rw [List.map_cons, List.foldlM_cons, List.foldlM_cons]
    show (execute source m i >>= _) = _
    rw [execute_eq sourceSmall small]
    refine report_bind fun m' stepped => ih ?_
    -- an instruction keeps the size of the target, which the next one relies on
    have settled := Machine.settles_execute source m i
    rw [stepped] at settled
    rw [show m'.target.size = m.target.size from settled]
    exact small

/-- Executing the results of a stream in turn never traps. -/
theorem foldlM_executeResult (sourceSmall : source.size < offsetBound) {m : Machine}
    (small : m.target.size < offsetBound) (s : Stream) :
    s.results.foldlM (executeResult source) m = report (Machine.run source m s).result := by
  rw [Machine.run_result, Stream.results, List.foldlM_append, foldlM_execute sourceSmall small]
  refine report_bind fun m' _ => ?_
  cases s.fault with
  | none => rfl
  | some fault => exact bind_pure _

/-- Reads what a patch declares, once it is admitted to the dump. -/
def readFor (source patch : Bytes) : Reading (Nat × Nat) := do
  readExpected signature
  let expected ← readWord
  if expected.toNat ≠ source.length then
    throw (.failure (.wrongInputSize expected.toNat source.length))
  let required ← expectedSource patch
  let actual := crc32 source
  if actual ≠ required then throw (.failure (.wrongInputChecksum required actual))
  let targetSize ← readWord
  let metadataSize ← readWord
  let _ ← readBytes metadataSize
  return (targetSize.toNat, metadataSize.toNat)

/-- Applies a patch to a dump and gives the target. -/
def apply (source patch : Bytes) : Trapping Bytes := do
  let ((targetSize, _), body) ← readFor source patch (Cursor.start patch)
  reserve targetSize
  let limit ← bodyEnd patch
  let m ← each limit (executeResult source.toArray) (Machine.blank targetSize) body
  return m.target.toList

theorem mirrors_readFor {source patch : Bytes} (held : patch.length < offsetBound) :
    Mirrors (readFor source patch) (Admission.readFor source patch) := by
  unfold readFor Admission.readFor Number.read
  simp only [bind_map_left]
  refine mirrors_readSignature.bind fun _ => mirrors_readWord.bind fun expected => ?_
  refine .refuse Iff.rfl _ ?_
  refine (Mirrors.lift (expectedSource_eq held)).bind fun required => ?_
  refine .refuse Iff.rfl _ ?_
  refine mirrors_readWord.bind fun targetSize => mirrors_readWord.bind fun metadataSize => ?_
  exact (mirrors_readBytes metadataSize).bind fun _ => .pure _

section Apply

variable {source patch : Bytes} {a : Admission}

theorem readFor_of_error {e : PatchError} (held : patch.length < offsetBound)
    (refused : Admission.check source patch = .error e) :
    readFor source patch (Cursor.start patch) = fail e := by
  have opening : (Cursor.start patch).reader = Reader.start patch := rfl
  rw [(mirrors_readFor held).result _ (Cursor.held_start held), opening]
  unfold Admission.check at refused
  split at refused
  · cases refused
  · rename_i read
    cases refused
    rw [read, resume]

theorem readFor_of_ok (held : patch.length < offsetBound)
    (admitted : Admission.check source patch = .ok a) :
    ∃ c : Cursor,
      readFor source patch (Cursor.start patch) = .ok ((a.targetSize, a.metadataSize), c) ∧
      c.Held ∧ c.reader = a.body := by
  have opening : (Cursor.start patch).reader = Reader.start patch := rfl
  have start := Cursor.held_start held
  unfold Admission.check at admitted
  split at admitted
  · rename_i read
    cases admitted
    obtain ⟨taken, step⟩ := (mirrors_readFor held).forward _ start _ _ read
    obtain ⟨c, same, held', reader⟩ := Cursor.held_of_consumes start step
    refine ⟨c, ?_, held', reader⟩
    rw [(mirrors_readFor held).result _ start, opening, read, resume, ← same]
  · cases admitted

/-- An admitted patch traps if its target cannot be held. -/
theorem apply_of_large (held : patch.length < offsetBound)
    (admitted : Admission.check source patch = .ok a) (large : offsetBound ≤ a.targetSize) :
    apply source patch = trap (.allocation a.targetSize) := by
  obtain ⟨c, admitting, -, -⟩ := readFor_of_ok held admitted
  rw [apply, admitting]
  show (reserve a.targetSize >>= _) = _
  rw [reserve, if_neg (Nat.not_lt_of_le large)]
  rfl

/-- In all other cases a patch is applied without a trap. -/
theorem apply_eq_report (sourceHeld : source.length < offsetBound)
    (held : patch.length < offsetBound)
    (small : ∀ a, Admission.check source patch = .ok a → a.targetSize < offsetBound) :
    apply source patch = report (BeatPatch.apply source patch).result := by
  cases admitted : Admission.check source patch with
  | error e =>
    rw [apply, readFor_of_error held admitted, apply_result_of_error admitted]
    rfl
  | ok a =>
    have small := small a admitted
    obtain ⟨c, admitting, held', reader⟩ := readFor_of_ok held admitted
    obtain ⟨-, footer⟩ := Admission.check_eq_ok_iff.mp admitted
    obtain ⟨f, read, -⟩ := Footer.expectedSource_eq_ok_iff.mp footer
    have size : (Machine.blank a.targetSize).target.size = a.targetSize := Array.size_replicate
    have walk : (⟨c.reader, (UInt64.ofNat (patch.length - Footer.size)).toNat, false⟩ :
        Stream.Walk) = a.walk patch := by
      rw [reader, toNat_bodyEnd held]
      rfl
    rw [apply, admitting, apply_result_of_lt admitted small]
    show (reserve a.targetSize >>= _) = _
    rw [reserve, if_pos small, bodyEnd_of_le held (Footer.size_le_of_read read)]
    show (each _ _ (Machine.blank a.targetSize) c >>= _) = _
    rw [each_eq _ held', walk, foldlM_executeResult (by simpa using sourceHeld) (by rwa [size])]
    exact report_bind fun _ _ => rfl

/-- Applying a patch traps only for a target that cannot be held. -/
theorem apply_eq_trap_iff {t : Trap} (sourceHeld : source.length < offsetBound)
    (held : patch.length < offsetBound) :
    apply source patch = trap t ↔ ∃ a, Admission.check source patch = .ok a ∧
      offsetBound ≤ a.targetSize ∧ t = .allocation a.targetSize := by
  by_cases small : ∀ a, Admission.check source patch = .ok a → a.targetSize < offsetBound
  · rw [apply_eq_report sourceHeld held small]
    constructor
    · intro trapped
      exact absurd trapped (report_ne_trap _ t)
    · rintro ⟨a, admitted, large, -⟩
      exact absurd (small a admitted) (Nat.not_lt_of_le large)
  · simp only [not_forall, Nat.not_lt] at small
    obtain ⟨a, admitted, large⟩ := small
    rw [apply_of_large held admitted large]
    constructor
    · rintro ⟨⟩
      exact ⟨a, admitted, large, rfl⟩
    · rintro ⟨b, same, -, rfl⟩
      rw [admitted] at same
      cases same
      rfl

end Apply

end BeatPatch.Trapping
