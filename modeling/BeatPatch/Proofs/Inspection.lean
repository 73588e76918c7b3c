import BeatPatch.Proofs.Gate
import BeatPatch.Proofs.Refinement
import BeatPatch.Proofs.Results

/-!
# Inspecting a patch and applying it

Parsing and applying read the same header in different orders, and both walk over the same
instructions. A patch that is applied is parsed with the size and the checksum of the dump, its
instructions are read without a fault, and what they do not fill of the target is zero. A patch
that is not parsed, or has a fault in its instructions, is never applied
(`apply_agrees_with_parse`).
-/

namespace BeatPatch

namespace Stream

/-- The number of bytes that the instructions of a stream produce. -/
def producedSize (s : Stream) : Nat := (s.instructions.map Instruction.length).sum

end Stream

/-! ## What a run leaves zero -/

namespace Machine

theorem length_slice_le (source : Array UInt8) (start length : Nat) :
    (slice source start length).length ≤ length := by
  rw [length_slice]
  exact Nat.min_le_left ..

/-- Placing bytes does not touch what lies behind them. -/
theorem drop_place {target : Array UInt8} {position n : Nat} {data : Bytes}
    (before : position + data.length ≤ n) :
    (place target position data).toList.drop n = target.toList.drop n := by
  induction data generalizing target position with
  | nil => rfl
  | cons byte rest ih =>
    rw [List.length_cons] at before
    rw [place, ih (by omega), Array.toList_setIfInBounds, List.drop_set_of_lt (by omega)]

/-- A copy within the target does not touch what lies behind its run. -/
theorem drop_copyWithin {target : Array UInt8} {start position length n : Nat}
    (before : position + length ≤ n) :
    (copyWithin target start position length).toList.drop n = target.toList.drop n := by
  induction length generalizing target start position with
  | zero => rfl
  | succ length ih =>
    rw [copyWithin, ih (by omega), Array.toList_setIfInBounds, List.drop_set_of_lt (by omega)]

/-- The machine has produced the first `n` bytes of a target of `size` bytes, and the others are
still zero. -/
structure Filled (size n : Nat) (m : Machine) : Prop where
  whole : m.target.size = size
  output : m.output.toNat = n
  inside : n ≤ size
  blank : m.target.toList.drop n = List.replicate (size - n) 0

theorem filled_blank (size : Nat) : Filled size 0 (blank size) where
  whole := Array.size_replicate
  output := rfl
  inside := Nat.zero_le size
  blank := by rw [Machine.blank, Array.toList_replicate, List.drop_zero, Nat.sub_zero]

section Filled

variable {source : Array UInt8} {size n : Nat} {m m' : Machine} {i : Instruction}

/-- A run of bytes that is written behind the others and leaves the rest of the target alone. -/
theorem Filled.advance {target : Array UInt8} {length : Nat} {sourceCursor targetCursor : Int64}
    (filled : Filled size n m) (small : size < offsetBound) (room : n + length ≤ size)
    (same : target.size = m.target.size)
    (rest : target.toList.drop (n + length) = m.target.toList.drop (n + length)) :
    Filled size (n + length)
      ⟨target, outputAfter m.output length, sourceCursor, targetCursor⟩ where
  whole := same.trans filled.whole
  output := by
    rw [toNat_outputAfter small (by rw [filled.output]; exact room), filled.output]
  inside := room
  blank := by
    show target.toList.drop (n + length) = _
    rw [rest, ← List.drop_drop, filled.blank, List.drop_replicate, Nat.sub_sub]

/-- An instruction that is executed fills as many bytes as it is long. -/
theorem Filled.execute (filled : Filled size n m) (small : size < offsetBound)
    (executed : Machine.execute source m i = .ok m') : Filled size (n + i.length) m' := by
  obtain ⟨target, output, sourceCursor, targetCursor⟩ := m
  have same : target.size = size := filled.whole
  have position : output.toNat = n := filled.output
  cases i with
  | sourceRead length =>
    simp only [Machine.execute, Except.bind_eq_ok_iff, checkRange_eq_ok_iff, same,
      position] at executed
    obtain ⟨-, -, -, room, ends⟩ := executed
    cases ends
    exact filled.advance small room (size_place ..)
      (drop_place (Nat.add_le_add_left (length_slice_le source n length) n))
  | targetRead data =>
    simp only [Machine.execute, Except.bind_eq_ok_iff, checkRange_eq_ok_iff, same,
      position] at executed
    obtain ⟨-, room, ends⟩ := executed
    cases ends
    exact filled.advance small room (size_place ..) (drop_place (Nat.le_refl _))
  | sourceCopy length move =>
    simp only [Machine.execute, Except.bind_eq_ok_iff, checkRange_eq_ok_iff, same,
      position] at executed
    obtain ⟨start, -, -, -, -, room, ends⟩ := executed
    cases ends
    exact filled.advance small room (size_place ..)
      (drop_place (Nat.add_le_add_left (length_slice_le source start length) n))
  | targetCopy length move =>
    simp only [Machine.execute, Except.bind_eq_ok_iff, checkRange_eq_ok_iff, same,
      position] at executed
    obtain ⟨start, -, -, -, -, room, ends⟩ := executed
    cases ends
    exact filled.advance small room (size_copyWithin ..) (drop_copyWithin (Nat.le_refl _))

/-- Instructions that are executed fill as many bytes as they are long together. -/
theorem Filled.foldlM (filled : Filled size n m) (small : size < offsetBound)
    {is : List Instruction} (executed : is.foldlM (Machine.execute source) m = .ok m') :
    Filled size (n + (is.map Instruction.length).sum) m' := by
  induction is generalizing n m with
  | nil => cases executed; exact filled
  | cons i is ih =>
    rw [List.foldlM_cons, Except.bind_eq_ok_iff] at executed
    obtain ⟨m₁, first, rest⟩ := executed
    rw [List.map_cons, List.sum_cons, ← Nat.add_assoc]
    exact ih (filled.execute small first) rest

end Filled

end Machine

/-! ## One stream, read twice -/

section Agreement

variable {source patch : Bytes} {a : Admission} {p : Patch}

/-- What is parsed of an admitted patch: the size and the checksum of the dump, the target that
was admitted, and the same instructions. -/
theorem Admission.agrees_with_parse (admitted : check source patch = .ok a)
    (parsed : Patch.parse patch = .ok p) :
    p.sourceSize = source.length ∧ p.footer.source = crc32 source ∧
      p.targetSize = a.targetSize ∧ p.stream = (a.walk patch).collect := by
  obtain ⟨⟨metadata, -, header⟩, footer⟩ := check_eq_ok_iff.mp admitted
  obtain ⟨f, read, named⟩ := Footer.expectedSource_eq_ok_iff.mp footer
  obtain ⟨whole, header', read'⟩ := Patch.parse_eq_ok_iff.mp parsed
  rw [header, EStateM.Result.ok.injEq, Prod.mk.injEq, Prod.mk.injEq] at header'
  obtain ⟨⟨sourceSize, targetSize, -⟩, body⟩ := header'
  rw [read, Except.ok.injEq] at read'
  refine ⟨sourceSize.symm, read' ▸ named, targetSize.symm, ?_⟩
  rw [Patch.stream, Patch.walk, walk, whole, body]

/-- Applying an admitted patch runs the stream that is parsed. -/
theorem apply_result_of_parse (admitted : Admission.check source patch = .ok a)
    (small : a.targetSize < offsetBound) (parsed : Patch.parse patch = .ok p) :
    (apply source patch).result =
      (Machine.run source.toArray (Machine.blank p.targetSize) p.stream).result.map
        (·.target.toList) := by
  obtain ⟨-, -, size, stream⟩ := Admission.agrees_with_parse admitted parsed
  rw [apply_result_of_lt admitted small, size, stream]

/-- A patch that is applied has no fault, and its instructions fill the target from the front as
far as they reach. -/
theorem filled_of_apply {target : Bytes} (applied : (apply source patch).result = .ok target)
    (parsed : Patch.parse patch = .ok p) :
    p.stream.fault = none ∧ p.stream.producedSize ≤ target.length ∧
      target.drop p.stream.producedSize =
        List.replicate (target.length - p.stream.producedSize) 0 := by
  obtain ⟨a, admitted, small, -⟩ := exists_check_of_apply applied
  obtain ⟨-, -, size, -⟩ := Admission.agrees_with_parse admitted parsed
  rw [apply_result_of_parse admitted small parsed, Machine.run_result] at applied
  cases ran : p.stream.instructions.foldlM (Machine.execute source.toArray)
      (Machine.blank p.targetSize) with
  | error e => rw [ran] at applied; cases applied
  | ok m =>
    rw [ran] at applied
    cases found : p.stream.fault with
    | some fault => rw [found] at applied; cases applied
    | none =>
      rw [found] at applied
      cases applied
      have filled := (Machine.filled_blank p.targetSize).foldlM (size ▸ small) ran
      rw [Nat.zero_add] at filled
      have length : m.target.toList.length = p.targetSize := by
        rw [Array.length_toList, filled.whole]
      rw [length]
      exact ⟨rfl, filled.inside, filled.blank⟩

/-- A patch with a fault fails when it is applied to a dump that admits it: at the fault, or at an
instruction before it that cannot be executed. -/
theorem fails_of_fault {fault : Stream.Fault} (admitted : Admission.check source patch = .ok a)
    (small : a.targetSize < offsetBound) (parsed : Patch.parse patch = .ok p)
    (found : p.stream.fault = some fault) :
    (∃ m, p.stream.instructions.foldlM (Machine.execute source.toArray)
        (Machine.blank p.targetSize) = .ok m ∧
      (apply source patch).result = .error fault.error) ∨
    ∃ before i after m e, p.stream.instructions = before ++ i :: after ∧
      before.foldlM (Machine.execute source.toArray) (Machine.blank p.targetSize) = .ok m ∧
      Machine.execute source.toArray m i = .error e ∧
      (apply source patch).result = .error e := by
  rw [apply_result_of_parse admitted small parsed, Machine.run_result, found]
  cases ran : p.stream.instructions.foldlM (Machine.execute source.toArray)
      (Machine.blank p.targetSize) with
  | ok m => exact .inl ⟨m, rfl, rfl⟩
  | error e =>
    obtain ⟨before, i, after, m, split, reached, stops⟩ := Except.exists_of_foldlM_eq_error ran
    exact .inr ⟨before, i, after, m, e, split, reached, stops, rfl⟩

end Agreement

/-- Inspecting a patch agrees with applying it. A patch that is applied is parsed, with the size
and the checksum of the dump and the size of the target; its instructions have no fault, produce
no more bytes than the target has, and leave the others zero. A patch that is not parsed is never
applied, and neither is one with a fault. Behind the checks of the header it is the fault that is
reported, unless an instruction before it could not be executed. -/
theorem apply_agrees_with_parse {source patch : Bytes} :
    (∀ target, (apply source patch).result = .ok target →
      ∃ p, Patch.parse patch = .ok p ∧ p.sourceSize = source.length ∧
        p.targetSize = target.length ∧ p.footer.source = crc32 source ∧ p.stream.fault = none ∧
        p.stream.producedSize ≤ target.length ∧
        target.drop p.stream.producedSize =
          List.replicate (target.length - p.stream.producedSize) 0) ∧
    (∀ e, Patch.parse patch = .error e → ∃ e', (apply source patch).result = .error e') ∧
    (∀ p fault, Patch.parse patch = .ok p → p.stream.fault = some fault →
      (∃ e, (apply source patch).result = .error e) ∧
      ∀ a, Admission.check source patch = .ok a → a.targetSize < offsetBound →
        (∃ m, p.stream.instructions.foldlM (Machine.execute source.toArray)
            (Machine.blank p.targetSize) = .ok m ∧
          (apply source patch).result = .error fault.error) ∨
        ∃ before i after m e, p.stream.instructions = before ++ i :: after ∧
          before.foldlM (Machine.execute source.toArray) (Machine.blank p.targetSize) = .ok m ∧
          Machine.execute source.toArray m i = .error e ∧
          (apply source patch).result = .error e) := by
  refine ⟨fun target applied => ?_, fun e unparsed => ?_, fun p fault parsed found => ⟨?_, ?_⟩⟩
  · obtain ⟨p, parsed, size, sum, whole⟩ := parse_of_apply applied
    obtain ⟨sound, inside, blank⟩ := filled_of_apply applied parsed
    exact ⟨p, parsed, size, whole, sum, sound, inside, blank⟩
  · cases applied : (apply source patch).result with
    | error e' => exact ⟨e', rfl⟩
    | ok target =>
      obtain ⟨p, parsed, -⟩ := parse_of_apply applied
      rw [unparsed] at parsed
      cases parsed
  · cases applied : (apply source patch).result with
    | error e => exact ⟨e, rfl⟩
    | ok target =>
      obtain ⟨sound, -⟩ := filled_of_apply applied parsed
      rw [found] at sound
      cases sound
  · intro a admitted small
    exact fails_of_fault admitted small parsed found

/-- A patch for the empty dump that ends with a literal that is cut off. -/
def cutOff (instructions : Bytes) : Bytes :=
  signature ++ [0x80, 0x82, 0x80] ++ instructions ++ 0xCD :: List.replicate 12 0

/-- A patch that leaves three bytes of its target; a literal that is cut off, behind an instruction
that is executed and behind one that is not; and a signature without a patch. -/
theorem apply_agrees_with_parse_cutOff :
    (∃ p, Patch.parse shortOfTarget = .ok p ∧ p.sourceSize = 5 ∧ p.targetSize = 14 ∧
      p.stream.fault = none ∧ p.stream.producedSize ≤ 14) ∧
    (apply [] (cutOff [0x81, 0x78])).result = .error (.outOfBounds .patch 10 20) ∧
    (∃ e, (apply [] (cutOff [0x80])).result = .error e) ∧
    ∃ e, (apply [] signature).result = .error e := by
  have applied : (apply [0x61, 0x62, 0x63, 0x64, 0x65] shortOfTarget).result =
      .ok [0x61, 0x62, 0x78, 0x79, 0x62, 0x63, 0x64, 0x62, 0x63, 0x64, 0x62, 0, 0, 0] := by
    decide +kernel
  let parts (bytes : Bytes) : Patch := ⟨bytes, 0, 2, [], ⟨0, 0, 0⟩, ⟨7, bytes.drop 7⟩⟩
  let literal := parts (cutOff [0x81, 0x78])
  let read := parts (cutOff [0x80])
  have literalParsed : Patch.parse (cutOff [0x81, 0x78]) = .ok literal := by decide +kernel
  have readParsed : Patch.parse (cutOff [0x80]) = .ok read := by decide +kernel
  have literalFault : literal.stream.fault = some ⟨9, .outOfBounds .patch 10 20⟩ := by
    decide +kernel
  have readFault : read.stream.fault = some ⟨8, .outOfBounds .patch 9 20⟩ := by decide +kernel
  have admitted : Admission.check [] (cutOff [0x81, 0x78]) = .ok ⟨2, 0, literal.body⟩ := by
    decide +kernel
  obtain ⟨first, -, -⟩ := @apply_agrees_with_parse [0x61, 0x62, 0x63, 0x64, 0x65] shortOfTarget
  obtain ⟨-, -, second⟩ := @apply_agrees_with_parse [] (cutOff [0x81, 0x78])
  obtain ⟨-, -, third⟩ := @apply_agrees_with_parse [] (cutOff [0x80])
  obtain ⟨-, fourth, -⟩ := @apply_agrees_with_parse [] signature
  refine ⟨?_, ?_, (third read _ readParsed readFault).1, fourth (.outOfBounds .patch 4 1) rfl⟩
  · obtain ⟨p, parsed, size, whole, -, sound, inside, -⟩ := first _ applied
    exact ⟨p, parsed, size, whole, sound, inside⟩
  · rcases (second literal _ literalParsed literalFault).2 _ admitted (by decide) with
      ⟨m, -, failed⟩ | ⟨before, i, after, m, e, split, reached, stops, -⟩
    · exact failed
    · -- the one instruction in front of the fault is executed
      have one : literal.stream.instructions = [.targetRead [0x78]] := by decide +kernel
      rw [one] at split
      cases before with
      | nil => cases split; cases reached; cases stops
      | cons j before => cases before <;> cases split

end BeatPatch
