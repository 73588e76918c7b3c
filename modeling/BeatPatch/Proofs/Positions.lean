import BeatPatch.Proofs.TrapFreeRuns

/-!
# Where a machine stands

A run of instructions that a patch can hold keeps the output position and the cursors inside their
buffers, and leaves the target blank behind the output position (`Sound`). So no sum behind the
checks of an instruction wraps, a cursor can leave its word only upwards, and a failure names the
place where the cursor would have been, as far as a signed word can (`sound_of_executed`).
-/

namespace BeatPatch

/-- The instruction is read from some place of some patch. -/
def Instruction.Decodable (i : Instruction) : Prop := ∃ r r', Instruction.read r = .ok i r'

theorem Instruction.decodable_iff {i : Instruction} : i.Decodable ↔ i.Encodable := by
  constructor
  · rintro ⟨r, r', read⟩
    exact (read_eq_ok_iff_consumes.mp read).1
  · intro sound
    have whole : (Reader.start i.encode).Consumes i.encode ⟨i.encode.length, []⟩ :=
      ⟨(List.append_nil _).symm, (Nat.zero_add _).symm⟩
    exact ⟨_, _, read_eq_ok_iff_consumes.mpr ⟨sound, .inl whole⟩⟩

/-- Moves go down by less than a signed word can hold. -/
theorem Instruction.Decodable.low {i : Instruction} (decodable : i.Decodable) {move : Int}
    (copies : i.move? = some move) : -offsetBound ≤ move := by
  have near := (decodable_iff.mp decodable).near move copies
  omega

/-- What follows a check fails, or the check does. -/
theorem Tape.require_bind_eq_error {β : Type} {buffer : Buffer} {size length : Nat} {start : Int}
    {f : Unit → Except PatchError β} {e : PatchError}
    (failed : require buffer size start length >>= f = .error e) :
    ¬ (0 ≤ start ∧ start + length ≤ size) ∧ e = outside buffer start length ∨
      f () = .error e := by
  by_cases inside : 0 ≤ start ∧ start + length ≤ size
  · rw [require, if_pos inside] at failed
    exact .inr failed
  · rw [require, if_neg inside] at failed
    cases failed
    exact .inl ⟨inside, rfl⟩

namespace Machine

/-- The target has its size, the output position and the cursors are inside their buffers or at
their ends, and nothing is written at the output position or behind it. -/
structure Sound (sourceSize targetSize : Nat) (m : Machine) : Prop where
  whole : m.target.size = targetSize
  output : m.output.toNat ≤ targetSize
  source : 0 ≤ m.sourceCursor.toInt ∧ m.sourceCursor.toInt ≤ sourceSize
  target : 0 ≤ m.targetCursor.toInt ∧ m.targetCursor.toInt ≤ targetSize
  blank : ∀ j byte, m.output.toNat ≤ j → m.target[j]? = some byte → byte = 0

/-- A run of bytes that is read or written: the buffer and its size, where in it the run starts, and
how long it is. -/
structure Access where
  buffer : Buffer
  size : Nat
  start : Int
  length : Nat

/-- The run lies in the buffer. -/
def Access.Inside (a : Access) : Prop := 0 ≤ a.start ∧ a.start + a.length ≤ a.size

/-- The run that an instruction reads. A cursor has moved by then, wherever this takes it. -/
def reads? (source : Array UInt8) (m : Machine) : Instruction → Option Access
  | .sourceRead length => some ⟨.source, source.size, m.output.toNat, length⟩
  | .targetRead _ => none
  | .sourceCopy length move =>
    some ⟨.source, source.size, m.sourceCursor.toInt + move, length⟩
  | .targetCopy length move =>
    some ⟨.target, m.target.size, m.targetCursor.toInt + move, length⟩

/-- The run that an instruction writes. -/
def writes (m : Machine) (i : Instruction) : Access :=
  ⟨.target, m.target.size, m.output.toNat, i.length⟩

/-- The runs that an instruction reads and writes. -/
def accesses (source : Array UInt8) (m : Machine) (i : Instruction) : List Access :=
  (m.reads? source i).toList ++ [m.writes i]

theorem mem_accesses_iff {source : Array UInt8} {m : Machine} {i : Instruction} {a : Access} :
    a ∈ m.accesses source i ↔ m.reads? source i = some a ∨ a = m.writes i := by
  rw [accesses, List.mem_append, List.mem_singleton, Option.mem_toList]

/-! ## Runs of instructions -/

section Runs

variable {source : Bytes} {size : Nat} {m m' : Machine} {t : Tape UInt8} {i : Instruction}

/-- What agrees with a tape stands where the tape does, inside its buffers. -/
theorem Agrees.sound (agrees : Agrees source size m t) : Sound source.length size m where
  whole := agrees.size_target
  output := agrees.output ▸ agrees.inside.output
  source := agrees.sourceCursor ▸ agrees.inside.source
  target := agrees.targetCursor ▸ agrees.inside.target
  blank := by
    intro j byte behind here
    rw [agrees.output] at behind
    rw [← Array.getElem?_toList, agrees.target, List.getElem?_append_right behind,
      List.getElem?_replicate] at here
    split at here
    · exact (Option.some.inj here).symm
    · cases here

theorem Agrees.execute (sourceSmall : source.length < offsetBound) (small : size < offsetBound)
    (agrees : Agrees source size m t) (decodable : i.Decodable)
    (executed : execute source.toArray m i = .ok m') : ∃ t', Agrees source size m' t' := by
  obtain ⟨t', -, agrees'⟩ :=
    (agrees.step sourceSmall small fun _ => decodable.low).exists_ok executed
  exact ⟨t', agrees'⟩

/-- Instructions that a patch can hold lead from agreement to agreement. -/
theorem Agrees.foldlM (sourceSmall : source.length < offsetBound) (small : size < offsetBound)
    {is : List Instruction} (agrees : Agrees source size m t)
    (decodable : ∀ i ∈ is, i.Decodable)
    (executed : is.foldlM (Machine.execute source.toArray) m = .ok m') :
    ∃ t', Agrees source size m' t' := by
  induction is generalizing m t with
  | nil =>
    cases executed
    exact ⟨t, agrees⟩
  | cons i is ih =>
    rw [List.foldlM_cons, Except.bind_eq_ok_iff] at executed
    obtain ⟨m₁, first, rest⟩ := executed
    obtain ⟨t₁, agrees₁⟩ :=
      agrees.execute sourceSmall small (decodable i List.mem_cons_self) first
    exact ih agrees₁ (fun j mem => decodable j (List.mem_cons_of_mem i mem)) rest

/-! ## Failures -/

/-- An instruction fails because one of its runs leaves the buffer, and names the run. -/
theorem Agrees.exists_access_of_error (sourceSmall : source.length < offsetBound)
    (small : size < offsetBound) (agrees : Agrees source size m t) (decodable : i.Decodable)
    {e : PatchError} (failed : Machine.execute source.toArray m i = .error e) :
    ∃ a ∈ m.accesses source.toArray i, ¬ a.Inside ∧ e = Tape.outside a.buffer a.start a.length := by
  have stepped := (agrees.step sourceSmall small fun _ => decodable.low).fails failed
  obtain ⟨target, output, sourceCursor, targetCursor⟩ := m
  obtain ⟨written, sourceAt, targetAt⟩ := t
  obtain rfl : target.size = size := agrees.size_target
  obtain rfl : sourceCursor.toInt = sourceAt := agrees.sourceCursor
  obtain rfl : targetCursor.toInt = targetAt := agrees.targetCursor
  have position : output.toNat = written.length := agrees.output
  cases i with
  | targetRead data =>
    rw [Tape.step, ← position] at stepped
    rcases Tape.require_bind_eq_error stepped with writes | ends
    · exact ⟨_, mem_accesses_iff.mpr (.inr rfl), writes⟩
    · cases ends
  | sourceRead | sourceCopy | targetCopy =>
    rw [Tape.step, ← position] at stepped
    rcases Tape.require_bind_eq_error stepped with reads | stepped
    · exact ⟨_, mem_accesses_iff.mpr (.inl rfl), reads⟩
    · rcases Tape.require_bind_eq_error stepped with writes | ends
      · exact ⟨_, mem_accesses_iff.mpr (.inr rfl), writes⟩
      · cases ends

/-- No run starts below what a signed word can hold. -/
theorem Sound.start_ge {sourceSize : Nat} {source : Array UInt8}
    (sound : Sound sourceSize size m) (decodable : i.Decodable) {a : Access}
    (mem : a ∈ m.accesses source i) : -offsetBound ≤ a.start := by
  rcases mem_accesses_iff.mp mem with read | rfl
  · cases i with
    | sourceRead length =>
      cases read
      dsimp only
      omega
    | targetRead data => cases read
    | sourceCopy length move =>
      have low := decodable.low rfl
      have inside := sound.source
      cases read
      dsimp only
      omega
    | targetCopy length move =>
      have low := decodable.low rfl
      have inside := sound.target
      cases read
      dsimp only
      omega
  · dsimp only [writes]
    omega

end Runs

/-- Instructions that a patch can hold, executed from the blank target on, leave the machine sound.
No access to a buffer traps in a further one, and no sum behind its checks does. A cursor can leave
its word only upwards. So every failure names a run that leaves its buffer, by the exact place where
it starts, or by the largest that a signed word can hold if the start is above that. -/
theorem sound_of_executed {source : Bytes} {size : Nat} {is : List Instruction} {m : Machine}
    (sourceSmall : source.length < offsetBound) (small : size < offsetBound)
    (decodable : ∀ i ∈ is, i.Decodable)
    (executed : is.foldlM (execute source.toArray) (blank size) = .ok m) :
    Sound source.length size m ∧ ∀ i : Instruction, i.Decodable →
      Trapping.execute source.toArray m i = Trapping.report (execute source.toArray m i) ∧
      (∀ a ∈ m.accesses source.toArray i, -offsetBound ≤ a.start) ∧
      ∀ e, execute source.toArray m i = .error e →
        ∃ a ∈ m.accesses source.toArray i, ¬ a.Inside ∧
          ∃ place, e = .outOfBounds a.buffer place a.length ∧
            (place = a.start ∨ place = offsetBound - 1 ∧ offsetBound ≤ a.start) := by
  obtain ⟨t, agrees⟩ := (agrees_blank source size).foldlM sourceSmall small decodable executed
  have sound := agrees.sound
  refine ⟨sound, fun i further => ⟨?_, fun a => sound.start_ge further, fun e failed => ?_⟩⟩
  · apply Trapping.execute_eq
    · exact sourceSmall
    · rw [sound.whole]
      exact small
  · obtain ⟨a, mem, outside, rfl⟩ :=
      agrees.exists_access_of_error sourceSmall small further failed
    refine ⟨a, mem, outside, min a.start (offsetBound - 1), rfl, ?_⟩
    omega

/-- The source cursor is behind the dump. From there a move can take it beyond the signed words, and
the target cursor can be taken below its buffer. -/
theorem sound_of_executed_behind :
    let source : Bytes := [0x61, 0x62, 0x63]
    let m : Machine := ⟨#[0x62, 0x63, 0, 0], 2, 3, 0⟩
    [Instruction.sourceCopy 2 1].foldlM (execute source.toArray) (blank 4) = .ok m ∧
      Sound 3 4 m ∧
      Trapping.execute source.toArray m (.sourceCopy 1 (2 ^ 63 - 1)) =
        Trapping.fail (.outOfBounds .source (2 ^ 63 - 1) 1) ∧
      (∃ a ∈ m.accesses source.toArray (.sourceCopy 1 (2 ^ 63 - 1)), ¬ a.Inside) ∧
      Trapping.execute source.toArray m (.targetCopy 1 (-1)) =
        Trapping.fail (.outOfBounds .target (-1) 1) := by
  intro source m
  have executed : [Instruction.sourceCopy 2 1].foldlM (execute source.toArray) (blank 4) = .ok m :=
    rfl
  have decodable : ∀ i ∈ [Instruction.sourceCopy 2 1], i.Decodable := by
    intro i mem
    rw [List.mem_singleton.mp mem, Instruction.decodable_iff]
    decide
  have up : execute source.toArray m (.sourceCopy 1 (2 ^ 63 - 1)) =
      .error (.outOfBounds .source (2 ^ 63 - 1) 1) := rfl
  have down : execute source.toArray m (.targetCopy 1 (-1)) =
      .error (.outOfBounds .target (-1) 1) := rfl
  obtain ⟨sound, further⟩ := sound_of_executed (by decide) (by decide) decodable executed
  obtain ⟨upwards, -, failures⟩ :=
    further (.sourceCopy 1 (2 ^ 63 - 1)) (Instruction.decodable_iff.mpr (by decide))
  obtain ⟨downwards, -, -⟩ :=
    further (.targetCopy 1 (-1)) (Instruction.decodable_iff.mpr (by decide))
  obtain ⟨a, mem, outside, -⟩ := failures _ up
  rw [up] at upwards
  rw [down] at downwards
  exact ⟨executed, sound, upwards, ⟨a, mem, outside⟩, downwards⟩

end Machine

end BeatPatch
