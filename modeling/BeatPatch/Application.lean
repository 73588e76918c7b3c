import BeatPatch.Log
import BeatPatch.Machine
import BeatPatch.Patch

/-!
# Applying a patch

A patch is admitted to a dump by the size and the checksum of the dump; only then are its
instructions executed. The checksums of the target and of the patch are not looked at. A
stream that ends early leaves the rest of the target zero.
-/

namespace BeatPatch

/-- What is known of a patch once a dump has passed its checks. -/
structure Admission where
  targetSize : Nat
  metadataSize : Nat
  /-- The reader at the first instruction. -/
  body : Reader
deriving DecidableEq, Repr

namespace Admission

/-- Checks the dump against the size at the reader and the checksum in the footer, the size
first, and reads the rest of the header. -/
def readFor (source patch : Bytes) : Reading (Nat × Nat) := do
  readSignature
  let expected ← Number.read
  if expected ≠ source.length then throw (.wrongInputSize expected source.length)
  let required ← MonadExcept.ofExcept (Footer.expectedSource patch)
  let actual := crc32 source
  if actual ≠ required then throw (.wrongInputChecksum required actual)
  let targetSize ← Number.read
  let metadataSize ← Number.read
  let _ ← readBytes metadataSize
  return (targetSize, metadataSize)

/-- Admits a patch to a dump. -/
def check (source patch : Bytes) : Except PatchError Admission :=
  match readFor source patch (Reader.start patch) with
  | .ok (targetSize, metadataSize) body => .ok { targetSize, metadataSize, body }
  | .error e _ => .error e

/-- A walk over the instructions of the admitted patch. -/
def walk (a : Admission) (patch : Bytes) : Stream.Walk :=
  { reader := a.body, limit := patch.length - Footer.size }

end Admission

namespace Machine

/-- Executes instructions in order, noting each one first, after the records in `notes`. -/
def runOnto (source : Array UInt8) (notes : Array LogRecord) (m : Machine) :
    List Instruction → Logged Machine
  | [] => ⟨.ok m, notes.toList⟩
  | i :: rest =>
    let notes := notes.push (.executing i m.output.toNat)
    match execute source m i with
    | .ok m' => runOnto source notes m' rest
    | .error e => ⟨.error e, notes.toList⟩

/-- Executes the instructions of a stream; a fault of the stream counts once all before it
have been executed. -/
def run (source : Array UInt8) (m : Machine) (stream : Stream) : Logged Machine := do
  let m ← runOnto source #[] m stream.instructions
  match stream.fault with
  | some fault => Logged.fail fault.error
  | none => return m

end Machine

/-- Applies a patch to a dump and gives the target. -/
def apply (source patch : Bytes) : Logged Bytes := do
  let admission ← Logged.of (Admission.check source patch)
  let targetSize := admission.targetSize
  Logged.note (.applying source.length targetSize admission.metadataSize)
  if offsetBound ≤ targetSize then Logged.fail (.targetTooLarge targetSize)
  else
    let m ← Machine.run source.toArray (Machine.blank targetSize) (admission.walk patch).collect
    if m.output.toNat < targetSize then Logged.note (.endedEarly m.output.toNat targetSize)
    return m.target.toList

namespace Admission

theorem readFor_eq_ok_iff {source patch : Bytes} {targetSize metadataSize : Nat} {r r' : Reader} :
    readFor source patch r = .ok (targetSize, metadataSize) r' ↔
      (∃ metadata, metadata.length = metadataSize ∧
        Patch.readHeader r = .ok (source.length, targetSize, metadata) r') ∧
      Footer.expectedSource patch = .ok (crc32 source) := by
  simp only [readFor, Patch.readHeader, Reading.bind_eq_ok_iff, Reading.unless_eq_ok_iff,
    Reading.ofExcept_eq_ok_iff, Reading.pure_eq_ok_iff, ne_eq, Decidable.not_not, Prod.mk.injEq]
  constructor
  · rintro ⟨_, a, opening, _, b, first, rfl, _, _, ⟨footer, rfl⟩, rfl, _, c, second, _, d, third,
      metadata, _, fourth, ⟨rfl, rfl⟩, rfl⟩
    exact ⟨⟨metadata, (readBytes_eq_ok_iff.mp fourth).1, _, a, opening, _, b, first, _, c, second,
      _, d, third, metadata, _, fourth, ⟨rfl, rfl, rfl⟩, rfl⟩, footer⟩
  · rintro ⟨⟨_, size, _, a, opening, _, b, first, _, c, second, _, d, third, metadata, _, fourth,
      ⟨rfl, rfl, rfl⟩, rfl⟩, footer⟩
    have taken := (readBytes_eq_ok_iff.mp fourth).1
    exact ⟨_, a, opening, _, b, first, rfl, _, _, ⟨footer, rfl⟩, rfl, _, c, second, _, d, third,
      metadata, _, fourth, ⟨rfl, taken.symm.trans size⟩, rfl⟩

/-- A patch is admitted to a dump if its header declares the size of the dump and its footer the
checksum. -/
theorem check_eq_ok_iff {source patch : Bytes} {a : Admission} :
    check source patch = .ok a ↔
      (∃ metadata, metadata.length = a.metadataSize ∧ Patch.readHeader (Reader.start patch) =
        .ok (source.length, a.targetSize, metadata) a.body) ∧
      Footer.expectedSource patch = .ok (crc32 source) := by
  obtain ⟨targetSize, metadataSize, body⟩ := a
  rw [← readFor_eq_ok_iff, check]
  cases readFor source patch (Reader.start patch) with
  | error e r => simp
  | ok sizes r =>
    obtain ⟨_, _⟩ := sizes
    simp [and_assoc]

/-- Of a dump, only the size and the checksum are looked at. -/
theorem check_congr {s₁ s₂ : Bytes} (size : s₁.length = s₂.length) (sum : crc32 s₁ = crc32 s₂)
    (patch : Bytes) : check s₁ patch = check s₂ patch := by
  rw [check, check, readFor, readFor, size, sum]

end Admission

namespace Machine

theorem runOnto_result (source : Array UInt8) (notes : Array LogRecord) (m : Machine)
    (is : List Instruction) :
    (runOnto source notes m is).result = is.foldlM (execute source) m := by
  induction is generalizing m notes with
  | nil => rfl
  | cons i rest ih =>
    simp only [runOnto, List.foldlM_cons, bind, Except.bind]
    cases execute source m i with
    | ok m' => exact ih ..
    | error e => rfl

/-- A run executes the instructions in order, and then fails if the stream did. -/
theorem run_result (source : Array UInt8) (m : Machine) (s : Stream) :
    (run source m s).result = s.instructions.foldlM (execute source) m >>= fun m' =>
      match s.fault with
      | some fault => .error fault.error
      | none => .ok m' := by
  unfold run
  cases ran : (runOnto source #[] m s.instructions).result with
  | ok m' =>
    rw [Logged.bind_of_ok ran, ← runOnto_result source #[], ran]
    cases s.fault <;> rfl
  | error e =>
    rw [Logged.bind_of_error ran, ← runOnto_result source #[], ran]
    rfl

theorem run_after (source : Array UInt8) (m : Machine) (item : Stream.Item) (s : Stream) :
    (run source m (Stream.after [item] s)).result =
      execute source m item.instruction >>= fun m' => (run source m' s).result := by
  simp only [run_result, Stream.instructions, Stream.after, List.singleton_append, List.map_cons,
    List.foldlM_cons, bind_assoc]

/-- A run depends on the instructions and on the fault, and not on where they were read. -/
theorem run_congr {s t : Stream} (items : t.items = s.items) (fault : t.fault = s.fault)
    (source : Array UInt8) (m : Machine) : run source m t = run source m s := by
  rw [run, run, Stream.instructions, Stream.instructions, items, fault]

end Machine

section Apply

variable {source patch : Bytes}

theorem apply_result_of_error {e : PatchError} (refused : Admission.check source patch = .error e) :
    (apply source patch).result = .error e := by
  rw [apply, refused, Logged.bind_of_error rfl]

variable {a : Admission} (admitted : Admission.check source patch = .ok a)

include admitted in
theorem apply_result_of_le (large : offsetBound ≤ a.targetSize) :
    (apply source patch).result = .error (.targetTooLarge a.targetSize) := by
  rw [apply, admitted, Logged.bind_of_ok rfl]
  simp only [if_pos large]
  rfl

include admitted in
/-- An admitted patch with a target that can be held gives what its run leaves in the target. -/
theorem apply_result_of_lt (small : a.targetSize < offsetBound) :
    (apply source patch).result =
      (Machine.run source.toArray (Machine.blank a.targetSize) (a.walk patch).collect).result.map
        (·.target.toList) := by
  rw [apply, admitted, Logged.bind_of_ok rfl]
  simp only [if_neg (Nat.not_le_of_lt small)]
  cases ran : (Machine.run source.toArray (Machine.blank a.targetSize)
      (a.walk patch).collect).result with
  | ok m =>
    rw [Logged.bind_of_ok rfl, Logged.bind_of_ok ran]
    split <;> rfl
  | error e =>
    rw [Logged.bind_of_ok rfl, Logged.bind_of_error ran]
    rfl

include admitted in
/-- Two patches are applied alike, and this is logged alike, if the same is known of both once the
dump has passed their checks, and the same instructions follow. -/
theorem apply_congr {other : Bytes} {b : Admission}
    (admitted' : Admission.check source other = .ok b) (targetSize : b.targetSize = a.targetSize)
    (metadataSize : b.metadataSize = a.metadataSize)
    (items : (b.walk other).collect.items = (a.walk patch).collect.items)
    (fault : (b.walk other).collect.fault = (a.walk patch).collect.fault) :
    apply source other = apply source patch := by
  rw [apply, apply, admitted, admitted', Logged.of_ok_bind, Logged.of_ok_bind]
  simp only [targetSize, metadataSize, Machine.run_congr items fault]

end Apply

end BeatPatch
