import BeatPatch.Application
import BeatPatch.Proofs.Instructions
import BeatPatch.Proofs.Tape

/-!
# The patching machine and the tape

Applying an admitted patch gives exactly what the tape machine gives (`apply_eq_tape`). A machine
agrees with a tape if its target is the output of the tape followed by zeros and its words hold
the positions of the tape; all positions stay inside the buffers, so that no word wraps
(`Agrees.step`).
-/

namespace BeatPatch

/-- Two results that are related values, or the same failure. -/
inductive Together {α β : Type} (R : α → β → Prop) :
    Except PatchError α → Except PatchError β → Prop where
  | ok {a : α} {b : β} (related : R a b) : Together R (.ok a) (.ok b)
  | error (e : PatchError) : Together R (.error e) (.error e)

/-- Two computations that go on alike from related values stay together. -/
theorem Together.bind {α α' β β' : Type} {R : α → β → Prop} {S : α' → β' → Prop}
    {x : Except PatchError α} {y : Except PatchError β} {f : α → Except PatchError α'}
    {g : β → Except PatchError β'} (first : Together R x y)
    (next : ∀ a b, R a b → Together S (f a) (g b)) : Together S (x >>= f) (y >>= g) := by
  cases first with
  | ok related => exact next _ _ related
  | error e => exact .error e

theorem Together.exists_ok {α β : Type} {R : α → β → Prop} {x : Except PatchError α}
    {y : Except PatchError β} {a : α} (together : Together R x y) (succeeds : x = .ok a) :
    ∃ b, y = .ok b ∧ R a b := by
  cases together with
  | ok related =>
    cases succeeds
    exact ⟨_, rfl, related⟩
  | error e => cases succeeds

theorem Together.fails {α β : Type} {R : α → β → Prop} {x : Except PatchError α}
    {y : Except PatchError β} {e : PatchError} (together : Together R x y)
    (failed : x = .error e) : y = .error e := by
  cases together with
  | ok related => cases failed
  | error cause => exact congrArg Except.error (Except.error.inj failed)

namespace Machine

/-! ## Writing to the target -/

/-- Bytes placed over as many others take their place. -/
theorem toList_place {target : Array UInt8} {pre old post data : Bytes}
    (whole : target.toList = pre ++ (old ++ post)) (size : old.length = data.length) :
    (place target pre.length data).toList = pre ++ data ++ post := by
  induction data generalizing target pre old with
  | nil =>
    obtain rfl := List.eq_nil_of_length_eq_zero size
    simpa [place] using whole
  | cons byte rest ih =>
    cases old with
    | nil => cases size
    | cons first others =>
      have written : (target.setIfInBounds pre.length byte).toList =
          (pre ++ [byte]) ++ (others ++ post) := by
        rw [Array.toList_setIfInBounds, whole, List.set_append_right _ _ (Nat.le_refl _),
          Nat.sub_self, List.cons_append, List.set_cons_zero, List.append_assoc]
        rfl
      have placed := ih written (Nat.succ.inj size)
      rw [List.length_append, List.length_singleton] at placed
      rw [place, placed, List.append_assoc pre [byte], List.singleton_append]

/-- A copy onto the zeros behind the output appends what the tape appends: a position that is not
written yet reads as zero on both sides. -/
theorem toList_copyWithin {target : Array UInt8} {output : Bytes} {start n blank : Nat}
    (whole : target.toList = output ++ List.replicate (n + blank) 0) :
    (copyWithin target start output.length n).toList =
      Tape.copyOwn 0 output start n ++ List.replicate blank 0 := by
  induction n generalizing target output start with
  | zero => simpa [copyWithin, Tape.copyOwn] using whole
  | succ n ih =>
    have byte : target.getD start 0 = output.getD start 0 := by
      rw [Array.getD_eq_getD_getElem?, ← Array.getElem?_toList, whole, List.getD_eq_getElem?_getD]
      rcases Nat.lt_or_ge start output.length with inside | behind
      · rw [List.getElem?_append_left inside]
      · rw [List.getElem?_append_right behind, List.getElem?_eq_none behind,
          List.getElem?_replicate]
        split <;> rfl
    have written : (target.setIfInBounds output.length (target.getD start 0)).toList =
        (output ++ [output.getD start 0]) ++ List.replicate (n + blank) 0 := by
      rw [byte, Array.toList_setIfInBounds, whole, List.set_append_right _ _ (Nat.le_refl _),
        Nat.sub_self, Nat.add_right_comm, List.replicate_succ, List.set_cons_zero,
        List.append_assoc]
      rfl
    have copied := @ih _ _ (start + 1) written
    rw [List.length_append, List.length_singleton] at copied
    exact copied

theorem slice_toArray (source : Bytes) (start length : Nat) :
    slice source.toArray start length = (source.drop start).take length := by
  simp [slice, List.extract]

/-! ## Positions -/

/-- A position inside a target does not wrap. -/
theorem toNat_outputAfter {output : UInt64} {length size : Nat} (small : size < offsetBound)
    (inside : output.toNat + length ≤ size) :
    (outputAfter output length).toNat = output.toNat + length := by
  rw [offsetBound] at small
  have run : (UInt64.ofNat length).toNat = length := by
    rw [UInt64.toNat_ofNat', Nat.mod_eq_of_lt (by omega)]
  rw [outputAfter, UInt64.toNat_add, run, Nat.mod_eq_of_lt (by omega)]

theorem toInt_cursorAfter {start length size : Nat} (small : size < offsetBound)
    (inside : start + length ≤ size) : (cursorAfter start length).toInt = start + length := by
  rw [offsetBound] at small
  have first : (Int64.ofNat start).toInt = start := Int64.toInt_ofNat_of_lt (by omega)
  have run : (Int64.ofNat length).toInt = length := Int64.toInt_ofNat_of_lt (by omega)
  rw [cursorAfter, Int64.toInt_add, first, run, Int.bmod_eq_of_le (by omega) (by omega)]

theorem outside_eq (buffer : Buffer) (start length : Nat) :
    PatchError.outside buffer start length = Tape.outside buffer start length := by
  simp only [PatchError.outside, Tape.outside, offsetBound, PatchError.outOfBounds.injEq, true_and,
    and_true]
  omega

theorem checkRange_together (buffer : Buffer) (size start length : Nat) :
    Together (fun _ _ => start + length ≤ size) (checkRange buffer size start length)
      (Tape.require buffer size start length) := by
  by_cases inside : start + length ≤ size
  · rw [checkRange, if_pos inside, Tape.require, if_pos (by omega)]
    exact .ok inside
  · rw [checkRange, if_neg inside, Tape.require, if_neg (by omega), outside_eq]
    exact .error _

theorem isOffset_iff {position : Int} :
    isOffset position = true ↔ -offsetBound ≤ position ∧ position < offsetBound := by
  simp [isOffset]

/-- Moving a cursor and checking the run behind it fails like the one check of the tape. The sum
cannot leave the signed words downwards, and where it leaves them upwards it lies behind every
buffer. -/
theorem moveCursor_together {α β : Type} {R : α → β → Prop} {buffer : Buffer} {size length : Nat}
    {cursor : Int64} {move : Int} {f : Nat → Except PatchError α}
    {g : Unit → Except PatchError β} (small : size < offsetBound) (started : 0 ≤ cursor.toInt)
    (near : -offsetBound ≤ move)
    (next : ∀ start : Nat, cursor.toInt + move = start → start + length ≤ size →
      Together R (f start) (g ())) :
    Together R
      (do let start ← moveCursor buffer cursor move length
          checkRange buffer size start length
          f start)
      (Tape.require buffer size (cursor.toInt + move) length >>= g) := by
  generalize sum : cursor.toInt + move = moved at next ⊢
  rcases Int.lt_or_le moved 0 with negative | positive
  · have offset : isOffset moved = true := isOffset_iff.mpr ⟨by omega, by omega⟩
    have refused : moveCursor buffer cursor move length =
        .error (Tape.outside buffer moved length) := by
      have least : min moved (offsetBound - 1) = moved := by rw [offsetBound]; omega
      simp only [moveCursor, sum, offset, Bool.not_true, Bool.false_eq_true, if_false,
        if_pos negative, Tape.outside, least]
    rw [refused, Tape.require, if_neg (by omega)]
    exact .error _
  · obtain ⟨start, rfl⟩ := Int.eq_ofNat_of_zero_le positive
    rcases Nat.lt_or_ge start offsetBound with fits | large
    · have offset : isOffset start = true := isOffset_iff.mpr ⟨by omega, by omega⟩
      have moves : moveCursor buffer cursor move length = .ok start := by
        simp only [moveCursor, sum, offset, Bool.not_true, Bool.false_eq_true, if_false,
          if_neg (Int.not_lt.mpr positive), Int.toNat_natCast]
      rw [moves]
      exact (checkRange_together buffer size start length).bind fun _ _ inside =>
        next start rfl inside
    · have beyond : isOffset start = false := by
        rw [← Bool.not_eq_true, isOffset_iff]
        omega
      have refused : moveCursor buffer cursor move length =
          .error (Tape.outside buffer start length) := by
        have greatest : min (offsetBound : Int) (offsetBound - 1) =
            min (start : Int) (offsetBound - 1) := by
          omega
        simp only [moveCursor, sum, beyond, Bool.not_false, if_true, outside_eq, Tape.outside,
          greatest]
      rw [refused, Tape.require, if_neg (by omega)]
      exact .error _

/-! ## Agreement -/

/-- The machine holds what the tape holds. -/
structure Agrees (source : Bytes) (targetSize : Nat) (m : Machine) (t : Tape UInt8) : Prop where
  inside : t.Inside source.length targetSize
  target : m.target.toList = t.output ++ List.replicate (targetSize - t.output.length) 0
  output : m.output.toNat = t.output.length
  sourceCursor : m.sourceCursor.toInt = t.sourceCursor
  targetCursor : m.targetCursor.toInt = t.targetCursor

theorem agrees_blank (source : Bytes) (targetSize : Nat) :
    Agrees source targetSize (blank targetSize) Tape.fresh where
  inside :=
    ⟨Nat.zero_le _, ⟨Int.le_refl _, Int.natCast_nonneg _⟩,
      ⟨Int.le_refl _, Int.natCast_nonneg _⟩⟩
  target := by simp [blank, Tape.fresh]
  output := rfl
  sourceCursor := rfl
  targetCursor := rfl

section Step

variable {source : Bytes} {targetSize : Nat} {m : Machine} {t : Tape UInt8} {i : Instruction}

theorem Agrees.size_target (agrees : Agrees source targetSize m t) :
    m.target.size = targetSize := by
  have inside := agrees.inside.output
  rw [← Array.length_toList, agrees.target, List.length_append, List.length_replicate]
  omega

/-- Bytes that fit behind the output are appended by placing them there. -/
theorem Agrees.toList_place (agrees : Agrees source targetSize m t) {data : Bytes}
    (room : t.output.length + data.length ≤ targetSize) :
    (place m.target t.output.length data).toList =
      (t.output ++ data) ++ List.replicate (targetSize - (t.output ++ data).length) 0 := by
  have zeros : targetSize - t.output.length =
      data.length + (targetSize - (t.output ++ data).length) := by
    rw [List.length_append]
    omega
  have whole : m.target.toList = t.output ++ (List.replicate data.length 0 ++
      List.replicate (targetSize - (t.output ++ data).length) 0) := by
    rw [agrees.target, zeros, List.replicate_append_replicate]
  exact Machine.toList_place whole List.length_replicate

theorem Agrees.toList_copyWithin (agrees : Agrees source targetSize m t) {start length : Nat}
    (room : t.output.length + length ≤ targetSize) :
    (copyWithin m.target start t.output.length length).toList =
      Tape.copyOwn 0 t.output start length ++
        List.replicate (targetSize - (Tape.copyOwn 0 t.output start length).length) 0 := by
  have zeros : targetSize - t.output.length =
      length + (targetSize - (Tape.copyOwn 0 t.output start length).length) := by
    rw [Tape.length_copyOwn]
    omega
  exact Machine.toList_copyWithin (by rw [agrees.target, zeros])

/-- Appending a run that fits keeps agreement, wherever the cursors went inside their buffers. -/
theorem Agrees.append (agrees : Agrees source targetSize m t) (small : targetSize < offsetBound)
    {length : Nat} {target : Array UInt8} {sourceCursor targetCursor : Int64} {t' : Tape UInt8}
    (size : t'.output.length = t.output.length + length)
    (room : t.output.length + length ≤ targetSize)
    (written : target.toList = t'.output ++ List.replicate (targetSize - t'.output.length) 0)
    (sourceAt : sourceCursor.toInt = t'.sourceCursor)
    (sourceInside : 0 ≤ t'.sourceCursor ∧ t'.sourceCursor ≤ source.length)
    (targetAt : targetCursor.toInt = t'.targetCursor)
    (targetInside : 0 ≤ t'.targetCursor ∧ t'.targetCursor ≤ targetSize) :
    Agrees source targetSize ⟨target, outputAfter m.output length, sourceCursor, targetCursor⟩
      t' where
  inside := ⟨by rw [size]; exact room, sourceInside, targetInside⟩
  target := written
  output := by
    rw [toNat_outputAfter small (by rw [agrees.output]; exact room), agrees.output, size]
  sourceCursor := sourceAt
  targetCursor := targetAt

/-- Every instruction takes a machine and the tape it agrees with on together. -/
theorem Agrees.step (sourceSmall : source.length < offsetBound) (small : targetSize < offsetBound)
    (near : ∀ move, i.move? = some move → -offsetBound ≤ move)
    (agrees : Agrees source targetSize m t) :
    Together (Agrees source targetSize) (execute source.toArray m i)
      (Tape.step id source targetSize t i) := by
  obtain ⟨target, output, sourceCursor, targetCursor⟩ := m
  obtain ⟨written, sourceAt, targetAt⟩ := t
  obtain ⟨-, sourceInside, targetInside⟩ := agrees.inside
  have size := agrees.size_target
  have position := agrees.output
  have sourceSame := agrees.sourceCursor
  have targetSame := agrees.targetCursor
  simp only at size position sourceSame targetSame sourceInside targetInside
  have run {start length : Nat} (inside : start + length ≤ source.length) :
      ((source.drop start).take length).length = length := by
    rw [List.length_take, List.length_drop]
    omega
  cases i with
  | sourceRead length =>
    simp only [execute, Tape.step, size, position, slice_toArray, List.size_toArray]
    refine (checkRange_together ..).bind fun _ _ read => ?_
    refine (checkRange_together ..).bind fun _ _ room => .ok ?_
    have filled : (written ++ (source.drop written.length).take length).length =
        written.length + length := by
      rw [List.length_append, run read]
    exact agrees.append small filled room (agrees.toList_place (by rw [run read]; exact room))
      sourceSame sourceInside targetSame targetInside
  | targetRead data =>
    simp only [execute, Tape.step, size, position, List.map_id]
    refine (checkRange_together ..).bind fun _ _ room => .ok ?_
    exact agrees.append small List.length_append room (agrees.toList_place room)
      sourceSame sourceInside targetSame targetInside
  | sourceCopy length move =>
    simp only [execute, Tape.step, size, position, slice_toArray, List.size_toArray]
    rw [← sourceSame] at sourceInside ⊢
    refine moveCursor_together sourceSmall sourceInside.1 (near move rfl) fun start moved read => ?_
    refine (checkRange_together ..).bind fun _ _ room => .ok ?_
    rw [moved, Int.toNat_natCast]
    have filled : (written ++ (source.drop start).take length).length =
        written.length + length := by
      rw [List.length_append, run read]
    have behind : 0 ≤ (start + length : Int) ∧ (start + length : Int) ≤ source.length := by omega
    exact agrees.append small filled room (agrees.toList_place (by rw [run read]; exact room))
      (toInt_cursorAfter sourceSmall read) behind targetSame targetInside
  | targetCopy length move =>
    simp only [execute, Tape.step, size, position]
    rw [← targetSame] at targetInside ⊢
    refine moveCursor_together small targetInside.1 (near move rfl) fun start moved read => ?_
    refine (checkRange_together ..).bind fun _ _ room => .ok ?_
    rw [moved, Int.toNat_natCast]
    have behind : 0 ≤ (start + length : Int) ∧ (start + length : Int) ≤ targetSize := by omega
    exact agrees.append small (Tape.length_copyOwn ..) room (agrees.toList_copyWithin room)
      sourceSame sourceInside (toInt_cursorAfter small read) behind

/-- A run over what a walk collects and a tape run over the walk itself stay together. -/
theorem Agrees.run (sourceSmall : source.length < offsetBound) (small : targetSize < offsetBound)
    (w : Stream.Walk) (agrees : Agrees source targetSize m t) :
    Together (fun m' out => m'.target.toList = out) (run source.toArray m w.collect).result
      (Tape.run id source targetSize w t) := by
  induction w using Stream.Walk.induction generalizing m t with
  | ended w next =>
    rw [Stream.Walk.collect_of_none next, Tape.run_of_none next, run_result]
    exact .ok agrees.target
  | fault w e w' next =>
    rw [Stream.Walk.collect_of_error next, Tape.run_of_error next, run_result]
    exact .error e
  | item w i w' next ih =>
    obtain ⟨-, -, r, read, -⟩ := Stream.Walk.next?_eq_ok_iff.mp next
    have near : ∀ move, i.move? = some move → -offsetBound ≤ move := by
      intro move copies
      have := (Instruction.read_eq_ok_iff_consumes.mp read).1.near move copies
      omega
    rw [Stream.Walk.collect_of_ok next, Tape.run_of_ok next, run_after]
    exact (agrees.step sourceSmall small near).bind fun _ _ agrees => ih agrees

end Step

/-- From blank machine to finished target, a run gives what the tape gives. -/
theorem run_blank_eq_tape {source : Bytes} {targetSize : Nat}
    (sourceSmall : source.length < offsetBound) (small : targetSize < offsetBound)
    (w : Stream.Walk) :
    (run source.toArray (blank targetSize) w.collect).result.map (·.target.toList) =
      Tape.run id source targetSize w Tape.fresh := by
  have together := (agrees_blank source targetSize).run sourceSmall small w
  generalize (run source.toArray (blank targetSize) w.collect).result = ran at together ⊢
  generalize Tape.run id source targetSize w Tape.fresh = taped at together ⊢
  cases together with
  | ok related => exact congrArg Except.ok related
  | error e => rfl

end Machine

/-- Applying a patch that passes the checks of its header gives exactly what the tape machine
gives, which reads the instructions from the end of the metadata to the footer: the output filled
with zeros up to the declared size, or the first failure. Sizes are taken to be below `2 ^ 63`. -/
theorem apply_eq_tape {source patch : Bytes} {a : Admission}
    (sourceSmall : source.length < offsetBound) (admitted : Admission.check source patch = .ok a)
    (targetSmall : a.targetSize < offsetBound) :
    (apply source patch).result =
      Tape.run id source a.targetSize (a.walk patch) Tape.fresh := by
  rw [apply_result_of_lt admitted targetSmall]
  exact Machine.run_blank_eq_tape sourceSmall targetSmall (a.walk patch)

/-- A patch with one instruction of each action, of which the last repeats what it has itself
written, and with three bytes of the target left over. -/
def shortOfTarget : Bytes :=
  signature ++ [0x85, 0x8E, 0x80, 0x84, 0x85, 0x78, 0x79, 0x8A, 0x82, 0x8F, 0x88,
    0x65, 0xD8, 0x87, 0x85, 0, 0, 0, 0, 0, 0, 0, 0]

theorem apply_eq_tape_shortOfTarget :
    ∃ a, Admission.check [0x61, 0x62, 0x63, 0x64, 0x65] shortOfTarget = .ok a ∧
      a.targetSize < offsetBound ∧
      (apply [0x61, 0x62, 0x63, 0x64, 0x65] shortOfTarget).result =
        .ok [0x61, 0x62, 0x78, 0x79, 0x62, 0x63, 0x64, 0x62, 0x63, 0x64, 0x62, 0, 0, 0] := by
  let a : Admission := ⟨14, 0, ⟨7, shortOfTarget.drop 7⟩⟩
  have admitted : Admission.check [0x61, 0x62, 0x63, 0x64, 0x65] shortOfTarget = .ok a := by
    decide +kernel
  refine ⟨a, admitted, by decide, ?_⟩
  rw [apply_eq_tape (by decide) admitted (by decide)]
  decide +kernel

end BeatPatch
