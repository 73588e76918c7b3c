import BeatPatch.Proofs.Gate
import BeatPatch.Proofs.Refinement
import BeatPatch.Proofs.RoundTrip

/-!
# Stamps

Applying an assembled patch executes the steps that it was assembled from (`exists_makes`). So the
patch that leaves a dump as it is does that, and a stamp writes its bytes over the dump and nowhere
else. It is taken back by stamping the bytes that stood there before (`apply_stamp`).
-/

namespace BeatPatch

/-! ## Steps on a tape -/

namespace Tape

variable {α : Type} {cell : UInt8 → α} {source : List α} {targetSize : Nat}

/-- A run over a walk executes the instructions that the walk collects. -/
theorem run_eq_foldlM (w : Stream.Walk) (t : Tape α) :
    run cell source targetSize w t =
      w.collect.instructions.foldlM (step cell source targetSize) t >>= fun t' =>
        match w.collect.fault with
        | some fault => .error fault.error
        | none => .ok (t'.finish cell targetSize) := by
  induction w using Stream.Walk.induction generalizing t with
  | ended w next =>
    rw [run_of_none next, Stream.Walk.collect_of_none next]
    rfl
  | fault w e w' next =>
    rw [run_of_error next, Stream.Walk.collect_of_error next]
    rfl
  | item w i w' next ih =>
    rw [run_of_ok next, Stream.Walk.collect_of_ok next]
    simp only [Stream.instructions, Stream.after, List.singleton_append, List.map_cons,
      List.foldlM_cons, bind_assoc]
    congr 1
    funext t'
    exact ih t'

variable {output : List α} {sourceCursor targetCursor : Int}

theorem require_of_le {buffer : Buffer} {size start length : Nat} (inside : start + length ≤ size) :
    require buffer size start length = .ok () :=
  if_pos ⟨Int.natCast_nonneg _, by omega⟩

theorem step_sourceRead {length : Nat} (inside : output.length + length ≤ source.length)
    (room : output.length + length ≤ targetSize) :
    step cell source targetSize ⟨output, sourceCursor, targetCursor⟩ (.sourceRead length) =
      .ok ⟨output ++ (source.drop output.length).take length, sourceCursor, targetCursor⟩ := by
  rw [step, require_of_le inside, require_of_le room]
  rfl

theorem step_targetRead {data : Bytes} (room : output.length + data.length ≤ targetSize) :
    step cell source targetSize ⟨output, sourceCursor, targetCursor⟩ (.targetRead data) =
      .ok ⟨output ++ data.map cell, sourceCursor, targetCursor⟩ := by
  rw [step, require_of_le room]
  rfl

/-- Bytes that are kept are those of the dump at the output position. -/
theorem foldlM_keep {n : Nat} (inside : output.length + n ≤ source.length)
    (room : output.length + n ≤ targetSize) :
    (Patch.keep n).foldlM (step cell source targetSize) ⟨output, sourceCursor, targetCursor⟩ =
      .ok ⟨output ++ (source.drop output.length).take n, sourceCursor, targetCursor⟩ := by
  unfold Patch.keep
  split
  next none =>
    rw [none, List.take_zero, List.append_nil]
    rfl
  next some =>
    rw [List.foldlM_cons, step_sourceRead inside room]
    rfl

end Tape

/-! ## Assembled patches -/

namespace Patch

/-- A patch without a fault that fits a dump is applied by executing its instructions. -/
theorem apply_eq_foldlM {source patch : Bytes} {p : Patch}
    (sourceSmall : source.length < offsetBound) (parsed : parse patch = .ok p)
    (size : p.sourceSize = source.length) (sum : p.footer.source = crc32 source)
    (targetSmall : p.targetSize < offsetBound) (sound : p.stream.fault = none) :
    (apply source patch).result =
      (p.stream.instructions.foldlM (Tape.step id source p.targetSize) Tape.fresh).map
        (Tape.finish id p.targetSize) := by
  have admitted := Admission.check_of_parse parsed size sum
  have walk : Admission.walk ⟨p.targetSize, p.metadata.length, p.body⟩ patch = p.walk := by
    rw [Admission.walk, Patch.walk, (parse_eq_ok_iff.mp parsed).1]
  have fault : p.walk.collect.fault = none := sound
  rw [apply_result_of_lt admitted targetSmall, Machine.run_blank_eq_tape sourceSmall targetSmall,
    walk, Tape.run_eq_foldlM, fault]
  rfl

/-- The patch is sound and makes the target of the dump. -/
structure Makes (patch source target : Bytes) : Prop where
  applied : (apply source patch).result = .ok target
  sound : ∃ p, parse patch = .ok p ∧ p.verifyTarget target = .ok () ∧ p.verifyPatch = .ok ()

/-- An assembled patch makes what its steps put on the tape, if this is the target that the patch
was assembled for. -/
theorem exists_makes {source metadata target : Bytes} {steps : List Instruction} {t : Tape UInt8}
    (sourceSmall : source.length < offsetBound) (targetSmall : target.length < offsetBound)
    (metadataFits : metadata.length < Number.bound) (encodable : ∀ i ∈ steps, i.Encodable)
    (executed : steps.foldlM (Tape.step id source target.length) Tape.fresh = .ok t)
    (whole : t.output = target) :
    ∃ patch, assemble source metadata steps target = .ok patch ∧ Makes patch source target := by
  have fits {n : Nat} (small : n < offsetBound) : n < Number.bound :=
    Nat.lt_trans small (by decide)
  obtain ⟨p, parsed, sourceSize, targetSize, -, footer, instructions, fault, -⟩ :=
    parse_spell (f := checksums source metadata steps target) (fits sourceSmall) (fits targetSmall)
      metadataFits encodable
  refine ⟨_, assemble_eq_spell fun i mem => (encodable i mem).nonempty, ?_, p, parsed, ?_, ?_⟩
  · have sum : p.footer.source = crc32 source := by rw [footer]; rfl
    rw [apply_eq_foldlM sourceSmall parsed sourceSize sum (targetSize ▸ targetSmall) fault,
      instructions, targetSize, executed, ← whole]
    simp [Except.map, Tape.finish]
  · rw [verifyTarget, footer]
    exact if_pos rfl
  · exact verifyPatch_of_withChecksum ((parse_eq_ok_iff.mp parsed).1.trans (spell_checksums ..))
      (by rw [footer]; rfl)

/-! ## Stamped bytes -/

section Stamped

variable {source data : Bytes} {offset : Nat}

theorem length_stamped (inside : offset + data.length ≤ source.length) :
    (stamped source offset data).length = source.length := by
  simp only [stamped, List.length_append, List.length_take, List.length_drop]
  omega

/-- A stamp is seen in its own place and nowhere else. -/
theorem getElem?_stamped (inside : offset + data.length ≤ source.length) (k : Nat) :
    (stamped source offset data)[k]? =
      if offset ≤ k ∧ k < offset + data.length then data[k - offset]? else source[k]? := by
  have front : (source.take offset).length = offset := List.length_take_of_le (by omega)
  have behind : (source.take offset ++ data).length = offset + data.length := by
    rw [List.length_append, front]
  rw [stamped]
  rcases Nat.lt_or_ge k offset with before | after
  · rw [if_neg (by omega), List.append_assoc, List.getElem?_append_left (by omega),
      List.getElem?_take_of_lt before]
  · rcases Nat.lt_or_ge k (offset + data.length) with within | past
    · rw [if_pos ⟨after, within⟩, List.getElem?_append_left (by omega),
        List.getElem?_append_right (by omega), front]
    · rw [if_neg (by omega), List.getElem?_append_right (by omega), behind, List.getElem?_drop,
        Nat.add_sub_cancel' past]

/-- The bytes that stood in the place of a stamp take it back. -/
theorem stamped_stamped (inside : offset + data.length ≤ source.length) :
    stamped (stamped source offset data) offset ((source.drop offset).take data.length) =
      source := by
  have window : ((source.drop offset).take data.length).length = data.length :=
    List.length_take_of_le (by rw [List.length_drop]; omega)
  have inside' : offset + ((source.drop offset).take data.length).length ≤
      (stamped source offset data).length := by
    rw [window, length_stamped inside]
    exact inside
  apply List.ext_getElem?
  intro k
  rw [getElem?_stamped inside', getElem?_stamped inside, window]
  split
  next place =>
    rw [List.getElem?_take_of_lt (by omega), List.getElem?_drop, Nat.add_sub_cancel' place.1]
  next => rfl

end Stamped

/-! ## Patches that stamp -/

section Stamps

variable {source data : Bytes} {offset : Nat}

theorem encodable_of_mem_keep {n : Nat} {i : Instruction} (short : n ≤ 2 ^ 62) (mem : i ∈ keep n) :
    i.Encodable := by
  unfold keep at mem
  split at mem
  · cases mem
  next some =>
    obtain rfl := List.mem_singleton.mp mem
    exact ⟨Nat.one_le_iff_ne_zero.mpr some, short, nofun⟩

theorem exists_identity (short : source.length < 2 ^ 62) :
    ∃ patch, identity source = .ok patch ∧ Makes patch source source := by
  have small : source.length < offsetBound := Nat.lt_trans short (by decide)
  have executed : (keep source.length).foldlM (Tape.step id source source.length) Tape.fresh =
      .ok ⟨source, 0, 0⟩ := by
    have kept := @Tape.foldlM_keep _ id source source.length [] 0 0 source.length
      (by simp) (by simp)
    simpa [Tape.fresh] using kept
  exact exists_makes small small (by decide)
    (fun i => encodable_of_mem_keep (Nat.le_of_lt short)) executed rfl

/-- The steps of a stamp on a dump of `size` bytes: what stands in front of it is kept, and so is
what stands behind it. -/
def stampSteps (size offset : Nat) (data : Bytes) : List Instruction :=
  keep offset ++ .targetRead data :: keep (size - offset - data.length)

theorem encodable_of_mem_stampSteps {size : Nat} {i : Instruction} (short : size ≤ 2 ^ 62)
    (nonempty : data ≠ []) (inside : offset + data.length ≤ size)
    (mem : i ∈ stampSteps size offset data) : i.Encodable := by
  rcases List.mem_append.mp mem with front | mem
  · exact encodable_of_mem_keep (by omega) front
  · rcases List.mem_cons.mp mem with rfl | rest
    · have run : data.length ≤ 2 ^ 62 := by omega
      exact ⟨List.length_pos_iff.mpr nonempty, run, nofun⟩
    · exact encodable_of_mem_keep (by omega) rest

/-- The steps of a stamp put the stamped dump on the tape. -/
theorem foldlM_stampSteps (inside : offset + data.length ≤ source.length) :
    (stampSteps source.length offset data).foldlM (Tape.step id source source.length) Tape.fresh =
      .ok ⟨stamped source offset data, 0, 0⟩ := by
  have front : (source.take offset).length = offset := List.length_take_of_le (by omega)
  have behind : (source.take offset ++ data).length = offset + data.length := by
    rw [List.length_append, front]
  have all : (source.drop (offset + data.length)).take (source.length - offset - data.length) =
      source.drop (offset + data.length) :=
    List.take_of_length_le (by rw [List.length_drop]; omega)
  have kept : (keep offset).foldlM (Tape.step id source source.length) Tape.fresh =
      .ok ⟨source.take offset, 0, 0⟩ :=
    Tape.foldlM_keep (by rw [List.length_nil]; omega) (by rw [List.length_nil]; omega)
  have written : Tape.step id source source.length ⟨source.take offset, 0, 0⟩ (.targetRead data) =
      .ok ⟨source.take offset ++ data, 0, 0⟩ := by
    rw [Tape.step_targetRead (by omega), List.map_id]
  have rest : (keep (source.length - offset - data.length)).foldlM
      (Tape.step id source source.length) ⟨source.take offset ++ data, 0, 0⟩ =
      .ok ⟨stamped source offset data, 0, 0⟩ := by
    rw [Tape.foldlM_keep (by omega) (by omega), behind, all]
    rfl
  rw [stampSteps, List.foldlM_append, kept]
  show (do let t ← Tape.step id source source.length _ _; _) = _
  rw [written]
  exact rest

theorem exists_stamp (short : source.length < 2 ^ 62) (nonempty : data ≠ [])
    (inside : offset + data.length ≤ source.length) :
    ∃ patch, stamp source offset data = .ok (patch, stamped source offset data) ∧
      Makes patch source (stamped source offset data) := by
  have small : source.length < offsetBound := Nat.lt_trans short (by decide)
  have size := length_stamped inside
  have executed : (stampSteps source.length offset data).foldlM
      (Tape.step id source (stamped source offset data).length) Tape.fresh =
      .ok ⟨stamped source offset data, 0, 0⟩ := by
    rw [size]
    exact foldlM_stampSteps inside
  obtain ⟨patch, assembled, makes⟩ := @exists_makes source [] _ _ _ small (by rwa [size])
    (by decide) (fun i => encodable_of_mem_stampSteps (Nat.le_of_lt short) nonempty inside) executed
    rfl
  refine ⟨patch, ?_, makes⟩
  rw [stampSteps] at assembled
  rw [stamp, if_neg (by omega)]
  simp only [assembled]
  rfl

end Stamps

end Patch

/-- The patch that leaves a dump as it is does that, also if the dump is empty. A stamp of at least
one byte that lies inside the dump gives a sound patch and the dump with the bytes written over it,
which is what applying the patch gives; and stamping the bytes that stood there onto that gives a
patch that makes the dump again. -/
theorem apply_stamp {source : Bytes} (short : source.length < 2 ^ 62) :
    (∃ patch, Patch.identity source = .ok patch ∧ (apply source patch).result = .ok source) ∧
    ∀ (offset : Nat) (data : Bytes), data ≠ [] → offset + data.length ≤ source.length →
      ∃ patch target p back, Patch.stamp source offset data = .ok (patch, target) ∧
        target.length = source.length ∧
        (∀ k, target[k]? =
          if offset ≤ k ∧ k < offset + data.length then data[k - offset]? else source[k]?) ∧
        (apply source patch).result = .ok target ∧ Patch.parse patch = .ok p ∧
        p.verifyTarget target = .ok () ∧ p.verifyPatch = .ok () ∧
        Patch.stamp target offset ((source.drop offset).take data.length) = .ok (back, source) ∧
        (apply target back).result = .ok source := by
  refine ⟨?_, fun offset data nonempty inside => ?_⟩
  · obtain ⟨patch, identity, makes⟩ := Patch.exists_identity short
    exact ⟨patch, identity, makes.applied⟩
  · obtain ⟨patch, stamps, makes⟩ := Patch.exists_stamp short nonempty inside
    obtain ⟨p, parsed, target, whole⟩ := makes.sound
    have size := Patch.length_stamped inside
    have window : ((source.drop offset).take data.length).length = data.length :=
      List.length_take_of_le (by rw [List.length_drop]; omega)
    have pos := List.length_pos_iff.mpr nonempty
    obtain ⟨back, restores, makes'⟩ := Patch.exists_stamp (size ▸ short)
      (List.length_pos_iff.mp (window ▸ pos)) (by rw [window, size]; exact inside)
    rw [Patch.stamped_stamped inside] at restores makes'
    exact ⟨patch, _, p, back, stamps, size, Patch.getElem?_stamped inside, makes.applied, parsed,
      target, whole, restores, makes'.applied⟩

/-- A byte in the middle of three is stamped over and restored, and so are all three; and the empty
dump is left as it is. -/
theorem apply_stamp_threeBytes :
    (∃ patch, Patch.identity [] = .ok patch ∧ (apply [] patch).result = .ok []) ∧
    (∃ patch back, Patch.stamp [1, 2, 3] 1 [9] = .ok (patch, [1, 9, 3]) ∧
      (apply [1, 2, 3] patch).result = .ok [1, 9, 3] ∧
      Patch.stamp [1, 9, 3] 1 [2] = .ok (back, [1, 2, 3]) ∧
      (apply [1, 9, 3] back).result = .ok [1, 2, 3]) ∧
    ∃ patch, Patch.stamp [1, 2, 3] 0 [7, 8, 9] = .ok (patch, [7, 8, 9]) ∧
      (apply [1, 2, 3] patch).result = .ok [7, 8, 9] := by
  have middle : (Patch.stamp [1, 2, 3] 1 [9]).map Prod.snd = .ok [1, 9, 3] := by decide +kernel
  have all : (Patch.stamp [1, 2, 3] 0 [7, 8, 9]).map Prod.snd = .ok [7, 8, 9] := by decide +kernel
  obtain ⟨identity, -⟩ := @apply_stamp [] (by decide)
  obtain ⟨-, stamps⟩ := @apply_stamp [1, 2, 3] (by decide)
  obtain ⟨patch, target, -, back, stamped, -, -, applied, -, -, -, restores, restored⟩ :=
    stamps 1 [9] (by decide) (by decide)
  obtain ⟨patch', target', -, -, stamped', -, -, applied', -⟩ :=
    stamps 0 [7, 8, 9] (by decide) (by decide)
  rw [stamped] at middle
  rw [stamped'] at all
  obtain rfl : target = [1, 9, 3] := Except.ok.inj middle
  obtain rfl : target' = [7, 8, 9] := Except.ok.inj all
  exact ⟨identity, ⟨patch, back, stamped, applied, restores, restored⟩, patch', stamped', applied'⟩

end BeatPatch
