import BeatPatch.Proofs.Gate
import BeatPatch.Proofs.Stops

/-!
# Bytes that are not looked at

A reading depends on the bytes that it passes and on how many follow, and on nothing that stands
behind the place where it stops (`Reading.Local`). So do the instructions of a patch, with the fault
that may end them. Since applying a patch does not look at the metadata and at the checksums behind
that of the dump either, these may be replaced wherever the instructions stop in front of the footer
(`apply_of_reannotated`).
-/

namespace BeatPatch

namespace Bytes

/-- What stands between two offsets is said by the bytes there. -/
theorem window_congr {a b : Bytes} {start stop : Nat}
    (same : ∀ k, start ≤ k → k < stop → a[k]? = b[k]?) :
    (a.drop start).take (stop - start) = (b.drop start).take (stop - start) := by
  apply List.ext_getElem?
  intro i
  by_cases inside : i < stop - start
  · rw [List.getElem?_take_of_lt inside, List.getElem?_take_of_lt inside, List.getElem?_drop,
      List.getElem?_drop, same _ (by omega) (by omega)]
  · rw [List.getElem?_take_eq_none (by omega), List.getElem?_take_eq_none (by omega)]

theorem wordAt_congr {a b : Bytes} {offset : Nat}
    (same : ∀ k, offset ≤ k → k < offset + 4 → a[k]? = b[k]?) :
    a.wordAt offset = b.wordAt offset := by
  simp only [wordAt, List.getD_eq_getElem?_getD, List.getElem?_drop]
  rw [same _ (by omega) (by omega), same _ (by omega) (by omega), same _ (by omega) (by omega),
    same _ (by omega) (by omega)]

end Bytes

/-! ## Readings -/

/-- The readers stand at one offset of patches of one length, and have the same bytes in front of
the bound. -/
structure Reader.AgreesTo (bound : Nat) (r s : Reader) : Prop where
  offset : s.offset = r.offset
  size : s.rest.length = r.rest.length
  same : s.rest.take (bound - r.offset) = r.rest.take (bound - r.offset)

/-- The bytes up to some place in front of the bound are the same, and so are those behind it. -/
theorem Reader.AgreesTo.advance {bound n : Nat} {r s : Reader} (agrees : r.AgreesTo bound s)
    (before : r.offset + n ≤ bound) : s.rest.take n = r.rest.take n ∧
      AgreesTo bound ⟨r.offset + n, r.rest.drop n⟩ ⟨s.offset + n, s.rest.drop n⟩ := by
  have front (bytes : Bytes) : (bytes.take (bound - r.offset)).take n = bytes.take n := by
    rw [List.take_take, Nat.min_eq_left (by omega)]
  have behind (bytes : Bytes) :
      (bytes.take (bound - r.offset)).drop n = (bytes.drop n).take (bound - (r.offset + n)) := by
    rw [List.drop_take, Nat.sub_add_eq]
  refine ⟨by rw [← front, agrees.same, front], by rw [agrees.offset], ?_, ?_⟩
  · rw [List.length_drop, List.length_drop, agrees.size]
  · rw [← behind, agrees.same, behind]

/-- The bytes at the front of a patch are passed as before, and behind them as many others. -/
theorem Reader.Consumes.exists_of_same_front {bytes other front back : Bytes} {r : Reader}
    (opening : (Reader.start bytes).Consumes (front ++ back) r)
    (size : other.length = bytes.length) (same : ∀ k < front.length, other[k]? = bytes[k]?) :
    ∃ back', back'.length = back.length ∧
      (Reader.start other).Consumes (front ++ back') ⟨r.offset, other.drop r.offset⟩ := by
  have start : r.offset = front.length + back.length :=
    opening.offset.trans ((Nat.zero_add _).trans List.length_append)
  have inside := (opening.on (Reader.on_start bytes)).inside
  have kept : other.take front.length = front := by
    have window : (other.drop 0).take (front.length - 0) = (bytes.drop 0).take (front.length - 0) :=
      Bytes.window_congr fun k _ before => same k before
    have whole : bytes = front ++ (back ++ r.rest) := opening.rest.trans (List.append_assoc ..)
    rw [Nat.sub_zero, List.drop_zero, List.drop_zero] at window
    rw [window, whole, List.take_left]
  have taken : ((other.drop front.length).take back.length).length = back.length :=
    List.length_take_of_le (by rw [List.length_drop]; omega)
  refine ⟨(other.drop front.length).take back.length, taken, ?_, ?_⟩
  · show other = front ++ _ ++ other.drop r.offset
    rw [start, ← List.drop_drop, List.append_assoc, List.take_append_drop]
    exact (List.take_append_drop front.length other).symm.trans (by rw [kept])
  · rw [List.length_append, taken, start]
    exact (Nat.zero_add _).symm

namespace Reading

variable {α β : Type} {x : Reading α}

/-- The readings give one result, or fail for one cause, and stop at readers that agree. -/
inductive Alike (bound : Nat) :
    EStateM.Result PatchError Reader α → EStateM.Result PatchError Reader α → Prop where
  | ok {a : α} {r s : Reader} (agrees : r.AgreesTo bound s) : Alike bound (.ok a r) (.ok a s)
  | error {e : PatchError} {r s : Reader} (agrees : r.AgreesTo bound s) :
    Alike bound (.error e r) (.error e s)

/-- The reading goes forward and depends on nothing behind the place where it stops. -/
structure Local (x : Reading α) : Prop where
  forward : x.Forward
  alike : ∀ {bound : Nat} {r s : Reader}, r.AgreesTo bound s → (x.stop r).offset ≤ bound →
    Alike bound (x r) (x s)

theorem Local.pure (a : α) : Local (Pure.pure a : Reading α) :=
  ⟨.of_still fun _ => rfl, fun agrees _ => .ok agrees⟩

theorem Local.throw (e : PatchError) : Local (throw e : Reading α) :=
  ⟨.of_still fun _ => rfl, fun agrees _ => .error agrees⟩

/-- A reading in two steps stops at or behind the place where the first step does. -/
theorem Local.bind {f : α → Reading β} (first : Local x) (next : ∀ a, Local (f a)) :
    Local (x >>= f) := by
  refine ⟨first.forward.bind fun a => (next a).forward, fun {bound r s} agrees before => ?_⟩
  cases read : x r with
  | ok a r' =>
    have last : (x >>= f).stop r = (f a).stop r' := by rw [stop, bind_of_ok read, stop]
    have ahead := (next a).forward.offset_le r'
    rw [last] at before
    have alike := first.alike agrees (stop_of_ok read ▸ Nat.le_trans ahead before)
    generalize read' : x s = result at alike
    rw [read] at alike
    cases alike with
    | ok agrees' =>
      rw [bind_of_ok read, bind_of_ok read']
      exact (next a).alike agrees' before
  | error e r' =>
    rw [stop_of_error (bind_of_error read f)] at before
    have alike := first.alike agrees (by rwa [stop_of_error read])
    generalize read' : x s = result at alike
    rw [read] at alike
    cases alike with
    | error agrees' =>
      rw [bind_of_error read, bind_of_error read']
      exact .error agrees'

theorem Local.map (reading : Local x) (f : α → β) : Local (f <$> x) := by
  rw [map_eq_pure_bind]
  exact reading.bind fun a => .pure (f a)

/-- What follows may use the offset of the reader. -/
theorem Local.afterGet {f : Reader → Reading β} (next : ∀ r, Local (f r))
    (same : ∀ r s, s.offset = r.offset → f s = f r) : Local (get >>= f) := by
  refine ⟨Forward.bind (.of_still fun _ => rfl) fun r => (next r).forward, ?_⟩
  intro bound r s agrees before
  have alike : Alike bound (f r r) (f r s) := (next r).alike agrees before
  show Alike bound (f r r) (f s s)
  rwa [same r s agrees.offset]

end Reading

theorem local_readBytes (n : Nat) : (readBytes n).Local := by
  refine ⟨forward_readBytes n, fun {bound r s} agrees before => ?_⟩
  rcases Nat.lt_or_ge r.rest.length n with short | enough
  · rw [readBytes_of_lt short, readBytes_of_lt (agrees.size ▸ short), agrees.offset]
    exact .error agrees
  · rw [Reading.stop_of_ok (readBytes_of_le enough)] at before
    obtain ⟨same, agrees'⟩ := agrees.advance before
    rw [readBytes_of_le enough, readBytes_of_le (agrees.size ▸ enough), same]
    exact .ok agrees'

namespace Number

/-- Every byte that is looked at is passed. -/
theorem local_scan (start shift : Nat) (sum : UInt64) :
    Reading.Local fun r => scan start shift sum r.offset r.rest := by
  refine ⟨forward_scan start shift sum, ?_⟩
  rintro bound ⟨offset, bytes⟩ ⟨offset', bytes'⟩ agrees before
  obtain rfl : offset' = offset := agrees.offset
  induction bytes generalizing shift sum offset' bytes' with
  | nil =>
    obtain rfl := List.eq_nil_of_length_eq_zero agrees.size
    exact .error agrees
  | cons byte rest ih =>
    cases bytes' with
    | nil => cases agrees.size
    | cons byte' rest' =>
      have head (passed : offset' + 1 ≤ bound) : byte' = byte ∧
          Reader.AgreesTo bound ⟨offset' + 1, rest⟩ ⟨offset' + 1, rest'⟩ := by
        obtain ⟨same, agrees'⟩ := agrees.advance passed
        exact ⟨by simpa using same, agrees'⟩
      unfold Reading.stop at before
      simp only [scan] at before ⊢
      cases counted : accumulate? sum shift byte with
      | none =>
        simp only [counted] at before
        obtain ⟨rfl, agrees'⟩ := head before
        simp only [counted]
        exact .error agrees'
      | some larger =>
        simp only [counted] at before
        by_cases last : isLast byte = true
        · simp only [if_pos last] at before
          obtain ⟨rfl, agrees'⟩ := head before
          simp only [counted, if_pos last]
          exact .ok agrees'
        · simp only [if_neg last] at before
          have ahead := (forward_scan start (shift + 7) larger).offset_le ⟨offset' + 1, rest⟩
          obtain ⟨rfl, agrees'⟩ := head (Nat.le_trans ahead before)
          simp only [counted, if_neg last]
          exact ih (shift + 7) larger (offset' + 1) rest' agrees' before

theorem local_readWord : readWord.Local where
  forward := forward_readWord
  alike := by
    intro bound r s agrees before
    have alike := (local_scan r.offset 0 0).alike agrees before
    show Reading.Alike bound (scan r.offset 0 0 r.offset r.rest) (scan s.offset 0 0 s.offset s.rest)
    rwa [agrees.offset] at alike ⊢

theorem local_readSigned : readSigned.Local := by
  rw [readSigned_eq]
  exact local_readWord.map _

end Number

namespace Instruction

theorem local_readPayload (length : Nat) (action : Action) : (readPayload length action).Local := by
  cases action with
  | sourceRead => exact .pure _
  | targetRead => exact (local_readBytes length).map _
  | sourceCopy => exact Number.local_readSigned.map _
  | targetCopy => exact Number.local_readSigned.map _

theorem local_read : read.Local := by
  refine .afterGet (fun r => Number.local_readWord.bind fun word => ?_) fun r s same => ?_
  · cases runLength? word with
    | none => exact .throw _
    | some length => exact local_readPayload length _
  · simp only [same]

end Instruction

/-! ## Instructions -/

namespace Stream.Walk

/-- The walks have one limit, and their readers agree in front of the bound. -/
structure AgreesTo (bound : Nat) (w v : Walk) : Prop where
  reader : w.reader.AgreesTo bound v.reader
  limit : v.limit = w.limit
  failed : v.failed = w.failed

section AgreesTo

variable {bound : Nat} {w w' v : Walk}

theorem AgreesTo.next?_eq_none (agrees : w.AgreesTo bound v) (next : w.next? = none) :
    v.next? = none := by
  have position : v.position = w.position := agrees.reader.offset
  rw [next?_eq_none_iff] at next ⊢
  rwa [agrees.failed, agrees.limit, position]

/-- An instruction that stops in front of the bound is the same for both, and so is a fault. -/
theorem AgreesTo.exists_next? {result : Except PatchError Instruction} (agrees : w.AgreesTo bound v)
    (next : w.next? = some (result, w')) (before : w'.position ≤ bound) :
    ∃ v', v.next? = some (result, v') ∧ w'.AgreesTo bound v' := by
  obtain ⟨sound, running⟩ := running_of_next? next
  have running' : v.position < v.limit := by
    have position : v.position = w.position := agrees.reader.offset
    rwa [position, agrees.limit]
  have alike (stops : (Instruction.read.stop w.reader).offset ≤ bound) :=
    Instruction.local_read.alike agrees.reader stops
  rw [next?_of_lt sound running] at next
  rw [next?_of_lt (agrees.failed.trans sound) running']
  generalize Instruction.read v.reader = found at alike ⊢
  cases read : Instruction.read w.reader with
  | ok i r =>
    rw [read] at next alike
    cases next
    cases alike (by rw [Reading.stop_of_ok read]; exact before) with
    | ok agrees' => exact ⟨_, rfl, agrees', agrees.limit, agrees.failed⟩
  | error e r =>
    rw [read] at next alike
    cases next
    cases alike (by rw [Reading.stop_of_error read]; exact before) with
    | error agrees' => exact ⟨_, rfl, agrees', agrees.limit, rfl⟩

theorem position_le_of_next? {result : Except PatchError Instruction}
    (next : w.next? = some (result, w')) : w.position ≤ w'.position := by
  have ahead := Instruction.forward_read.offset_le w.reader
  cases result with
  | ok i =>
    obtain ⟨-, -, r, read, rfl⟩ := next?_eq_ok_iff.mp next
    rwa [Reading.stop_of_ok read] at ahead
  | error e =>
    obtain ⟨-, -, r, failed, rfl⟩ := next?_eq_error_iff.mp next
    rwa [Reading.stop_of_error failed] at ahead

/-- Walking goes forward. -/
theorem position_le_collect (w : Walk) : w.position ≤ (collect w).rest.position := by
  induction w using Walk.induction with
  | ended w next =>
    rw [collect_of_none next]
  | fault w e w' next =>
    rw [collect_of_error next]
    exact position_le_of_next? next
  | item w i w' next ih =>
    rw [collect_of_ok next]
    exact Nat.le_trans (position_le_of_next? next) ih

/-- If one of the walks ends in front of the bound, the other gives the same instructions and the
same fault. -/
theorem AgreesTo.collect_eq (agrees : w.AgreesTo bound v)
    (before : (collect w).rest.position ≤ bound) :
    (collect v).items = (collect w).items ∧ (collect v).fault = (collect w).fault := by
  induction w using Walk.induction generalizing v with
  | ended w next =>
    rw [collect_of_none next, collect_of_none (agrees.next?_eq_none next)]
    exact ⟨rfl, rfl⟩
  | fault w e w' next =>
    have position : v.position = w.position := agrees.reader.offset
    rw [collect_of_error next] at before ⊢
    obtain ⟨v', next', -⟩ := agrees.exists_next? next before
    rw [collect_of_error next', position]
    exact ⟨rfl, rfl⟩
  | item w i w' next ih =>
    have position : v.position = w.position := agrees.reader.offset
    rw [collect_of_ok next] at before ⊢
    obtain ⟨v', next', agrees'⟩ :=
      agrees.exists_next? next (Nat.le_trans (position_le_collect w') before)
    obtain ⟨items, fault⟩ := ih agrees' before
    rw [collect_of_ok next', position]
    exact ⟨congrArg (_ :: ·) items, fault⟩

end AgreesTo

end Stream.Walk

/-! ## Patches -/

namespace Patch

/-- The bytes are those of the patch but for the metadata and for the last eight, which hold the
checksums of the target and of the patch. -/
structure Reannotated (p : Patch) (other : Bytes) : Prop where
  size : other.length = p.bytes.length
  same : ∀ k, k < p.body.offset - p.metadata.length ∨
    p.body.offset ≤ k ∧ k < p.bytes.length - 8 → other[k]? = p.bytes[k]?

section Reannotated

variable {bytes other : Bytes} {p : Patch}

/-- The header is read as before, but for what the metadata says. -/
theorem Reannotated.exists_readHeader (reannotated : p.Reannotated other)
    (parsed : parse bytes = .ok p) :
    ∃ metadata body, metadata.length = p.metadata.length ∧
      readHeader (Reader.start other) = .ok (p.sourceSize, p.targetSize, metadata) body ∧
      p.body.AgreesTo (p.bytes.length - 8) body := by
  obtain ⟨rfl, header, -⟩ := parse_eq_ok_iff.mp parsed
  obtain ⟨source, target, fits, opening⟩ := readHeader_eq_ok_iff.mp header
  have on := opening.on (Reader.on_start p.bytes)
  have front : p.body.offset = (signature ++ Number.encode p.sourceSize ++
      Number.encode p.targetSize ++ Number.encode p.metadata.length).length + p.metadata.length :=
    opening.offset.trans ((Nat.zero_add _).trans List.length_append)
  obtain ⟨metadata, size, opening'⟩ := opening.exists_of_same_front reannotated.size
    fun k before => reannotated.same k (.inl (by omega))
  refine ⟨metadata, ⟨p.body.offset, other.drop p.body.offset⟩, size,
    readHeader_eq_ok_iff.mpr ⟨source, target, size.symm ▸ fits, ?_⟩, rfl, ?_, ?_⟩
  · rw [encodeHeader, size]
    exact opening'
  · rw [on.rest, List.length_drop, List.length_drop, reannotated.size]
  · rw [on.rest]
    exact Bytes.window_congr fun k after before => reannotated.same k (.inr ⟨after, before⟩)

/-- The checksum of the dump stands in front of the last eight bytes. -/
theorem Reannotated.expectedSource_eq (reannotated : p.Reannotated other)
    (long : Footer.size ≤ p.bytes.length)
    (inside : p.body.offset ≤ p.bytes.length - Footer.size) :
    Footer.expectedSource other = Footer.expectedSource p.bytes := by
  have twelve : Footer.size = 12 := rfl
  rw [Footer.expectedSource_of_le long, Footer.expectedSource_of_le (reannotated.size ▸ long),
    reannotated.size]
  exact congrArg _ (Bytes.wordAt_congr fun k after before =>
    reannotated.same k (.inr ⟨by omega, by omega⟩))

end Reannotated

end Patch

/-- If the instructions of a patch stop in front of its footer, at their end or at a fault, the
patch is applied to every dump as before, down to the log, once its metadata is replaced by as many
other bytes and its last eight bytes by any. The metadata of such a patch ends in front of the
footer, too. -/
theorem apply_of_reannotated {bytes other : Bytes} {p : Patch} (parsed : Patch.parse bytes = .ok p)
    (ends : p.stream.rest.position ≤ bytes.length - Footer.size)
    (reannotated : p.Reannotated other) (source : Bytes) :
    apply source other = apply source bytes := by
  obtain ⟨rfl, header, footer⟩ := Patch.parse_eq_ok_iff.mp parsed
  obtain ⟨metadata, body, size, header', agrees⟩ := reannotated.exists_readHeader parsed
  have long := Footer.size_le_of_read footer
  have inside := Nat.le_trans (Stream.Walk.position_le_collect p.walk) ends
  have expected := reannotated.expectedSource_eq long inside
  have admits : Admission.check source p.bytes = _ := Admission.check_of_readHeader header
  have admits' : Admission.check source other = _ := Admission.check_of_readHeader header'
  rw [Admission.gate_congr expected] at admits'
  cases gate : Admission.gate source p.bytes p.sourceSize with
  | error e =>
    rw [gate] at admits admits'
    rw [apply, apply, admits, admits']
    rfl
  | ok u =>
    rw [gate] at admits admits'
    have walks : p.walk.AgreesTo (p.bytes.length - 8)
        (Admission.walk ⟨p.targetSize, metadata.length, body⟩ other) :=
      ⟨agrees, by rw [Admission.walk, Patch.walk, reannotated.size], rfl⟩
    have before : p.walk.collect.rest.position ≤ p.bytes.length - 8 :=
      Nat.le_trans ends (Nat.sub_le_sub_left (by decide) _)
    obtain ⟨items, fault⟩ := walks.collect_eq before
    exact apply_congr admits admits' rfl size items fault

/-- A patch for the empty dump, with one byte of metadata, and with these instructions and these
bytes behind the checksum of the dump. -/
def annotated (note : UInt8) (instructions behind : Bytes) : Bytes :=
  signature ++ [0x80, 0x8C, 0x81, note] ++ instructions ++ [0, 0, 0, 0] ++ behind

/-- A literal of two bytes, and then one that is longer than the patch. -/
theorem apply_of_reannotated_cutOff :
    let steps := [0x85, 0x61, 0x62, 0xCD]
    let p : Patch := ⟨annotated 1 steps (.replicate 8 2), 0, 12, [1], ⟨0, 0x02020202, 0x02020202⟩,
      ⟨8, steps ++ [0, 0, 0, 0] ++ .replicate 8 2⟩⟩
    Patch.parse p.bytes = .ok p ∧ p.stream.rest.position = p.bytes.length - Footer.size ∧
      p.Reannotated (annotated 3 steps (.replicate 8 4)) ∧
      (apply [] (annotated 3 steps (.replicate 8 4))).result =
        .error (.outOfBounds .patch 12 20) := by
  intro steps p
  have parsed : Patch.parse p.bytes = .ok p := by decide
  have ends : p.stream.rest.position = p.bytes.length - Footer.size := by decide +kernel
  have reannotated : p.Reannotated (annotated 3 steps (.replicate 8 4)) := by
    refine ⟨rfl, fun k outside => ?_⟩
    have alike : ∀ k < 24, k < 7 ∨ 8 ≤ k ∧ k < 16 →
        (annotated 3 steps (.replicate 8 4))[k]? = p.bytes[k]? := by decide
    have outside : k < 7 ∨ 8 ≤ k ∧ k < 16 := outside
    exact alike k (by omega) outside
  have before : (apply [] p.bytes).result = .error (.outOfBounds .patch 12 20) := by
    decide +kernel
  refine ⟨parsed, ends, reannotated, ?_⟩
  rw [apply_of_reannotated parsed (Nat.le_of_eq ends) reannotated]
  exact before

-- A literal that takes the footer with it does not stop in front of it.
example : (apply [] (annotated 1 [0xAD] (.replicate 8 2))).result ≠
    (apply [] (annotated 1 [0xAD] (.replicate 8 4))).result := by
  decide +kernel

end BeatPatch
