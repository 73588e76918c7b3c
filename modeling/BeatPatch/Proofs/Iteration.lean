import BeatPatch.Proofs.Stops
import BeatPatch.Proofs.TrapFreePatches
import Mathlib.Logic.Function.Iterate

/-!
# Asking for the next instruction

A walk can be asked for the next instruction any number of times. Each one that it gives begins
where the one before ended, before the footer, and takes at least one byte of the patch
(`Stream.Walk.Yields`). So there are no more of them than bytes between the header and the footer,
and a walk that has come to its end, or to an instruction that does not decode, stays where it is
(`next?_of_parse`).
-/

namespace BeatPatch

/-! ## One instruction -/

namespace Instruction

variable {i : Instruction} {r r' : Reader}

/-- Reading an instruction moves the reader forward. -/
theorem offset_lt_of_read (read : Instruction.read r = .ok i r') : r.offset < r'.offset := by
  obtain ⟨taken, step⟩ := forward_read r
  rw [Reading.stop_of_ok read] at step
  have shorter := read_rest_lt read
  rw [step.rest, List.length_append] at shorter
  rw [step.offset]
  omega

/-- The bytes of a literal are the last that are taken for it. -/
theorem literal_of_read {data bytes : Bytes} (on : r.On bytes)
    (read : Instruction.read r = .ok (.targetRead data) r') :
    data.length ≤ r'.offset ∧ data = (bytes.drop (r'.offset - data.length)).take data.length := by
  obtain ⟨-, whole | ⟨copies, -⟩⟩ := read_eq_ok_iff_consumes.mp read
  · obtain ⟨s, opening, literal⟩ := whole.split
    have taken : s.Consumes data r' := literal
    have start : r'.offset - data.length = s.offset := by
      rw [taken.offset]
      omega
    refine ⟨by rw [taken.offset]; omega, ?_⟩
    rw [start, ← (opening.on on).rest, taken.rest, List.take_left]
  · cases copies

end Instruction

namespace Stream

namespace Walk

variable {w w' : Walk} {bytes : Bytes}

/-- The instruction is read between two positions of a walk over these bytes: it begins before the
limit, takes a byte or more, and produces one or more. A literal is what stands at its end. -/
structure Yields (bytes : Bytes) (limit start ending : Nat) (i : Instruction) : Prop where
  before : start < limit
  forward : start < ending
  inside : ending ≤ bytes.length
  nonempty : 1 ≤ i.length
  read : Instruction.read ⟨start, bytes.drop start⟩ = .ok i ⟨ending, bytes.drop ending⟩
  literal : ∀ data, i = .targetRead data →
    data.length ≤ ending ∧ data = (bytes.drop (ending - data.length)).take data.length

/-- Behind a fault there is no instruction. -/
theorem next?_of_next?_error {e : PatchError} (next : w.next? = some (.error e, w')) :
    w'.next? = none := by
  obtain ⟨-, -, r, -, rfl⟩ := next?_eq_error_iff.mp next
  exact next?_eq_none_iff.mpr (.inl rfl)

/-- What is read, an instruction or a fault, moves the reader forward over the patch and keeps the
limit. -/
theorem on_next? {result : Except PatchError Instruction} (on : w.reader.On bytes)
    (next : w.next? = some (result, w')) : w'.reader.On bytes ∧ w'.limit = w.limit := by
  obtain ⟨taken, step⟩ := Instruction.forward_read w.reader
  cases result with
  | ok i =>
    obtain ⟨-, -, r, read, rfl⟩ := next?_eq_ok_iff.mp next
    rw [Reading.stop_of_ok read] at step
    exact ⟨step.on on, rfl⟩
  | error e =>
    obtain ⟨-, -, r, failed, rfl⟩ := next?_eq_error_iff.mp next
    rw [Reading.stop_of_error failed] at step
    exact ⟨step.on on, rfl⟩

theorem yields_of_next? {i : Instruction} (on : w.reader.On bytes)
    (next : w.next? = some (.ok i, w')) : Yields bytes w.limit w.position w'.position i := by
  obtain ⟨-, before, r, read, rfl⟩ := next?_eq_ok_iff.mp next
  have on' : r.On bytes := (on_next? on next).1
  have here : w.reader = ⟨w.position, bytes.drop w.position⟩ := by rw [position, ← on.rest]
  have there : r = ⟨r.offset, bytes.drop r.offset⟩ := by rw [← on'.rest]
  refine ⟨before, Instruction.offset_lt_of_read read, on'.inside, ?_, ?_, ?_⟩
  · exact (Instruction.read_eq_ok_iff_consumes.mp read).1.nonempty
  · rw [← here, read]
    exact congrArg _ there
  · rintro data rfl
    exact Instruction.literal_of_read on read

/-! ## All instructions -/

/-- The walk once it has been asked for the next instruction. At the end it stays as it is. -/
def advance (w : Walk) : Walk :=
  match w.next? with
  | none => w
  | some (_, w') => w'

/-- The walk once it has been asked `n` times. -/
def asked (w : Walk) (n : Nat) : Walk := advance^[n] w

theorem advance_of_none (next : w.next? = none) : w.advance = w := by
  rw [advance, next]

theorem advance_of_some {result : Except PatchError Instruction}
    (next : w.next? = some (result, w')) : w.advance = w' := by
  rw [advance, next]

theorem asked_succ (w : Walk) (n : Nat) : w.asked (n + 1) = (w.asked n).advance :=
  Function.iterate_succ_apply' advance n w

theorem asked_succ' (w : Walk) (n : Nat) : w.asked (n + 1) = w.advance.asked n :=
  Function.iterate_succ_apply advance n w

theorem asked_of_none (next : w.next? = none) (n : Nat) : w.asked n = w :=
  Function.iterate_fixed (advance_of_none next) n

/-- Being asked moves the reader forward over the patch, and keeps the limit. -/
theorem on_advance (on : w.reader.On bytes) :
    w.advance.reader.On bytes ∧ w.advance.limit = w.limit := by
  match next : w.next? with
  | none =>
    rw [advance_of_none next]
    exact ⟨on, rfl⟩
  | some (result, w') =>
    rw [advance_of_some next]
    exact on_next? on next

theorem on_asked (on : w.reader.On bytes) (n : Nat) :
    (w.asked n).reader.On bytes ∧ (w.asked n).limit = w.limit := by
  induction n with
  | zero => exact ⟨on, rfl⟩
  | succ n ih =>
    obtain ⟨on', limit⟩ := on_advance ih.1
    rw [asked_succ]
    exact ⟨on', limit.trans ih.2⟩

/-- A walk that was asked at its end, or that met a fault, has nothing more to give and stays. -/
theorem asked_of_stopped {n k : Nat}
    (stopped : (w.asked n).next? = none ∨ ∃ e w', (w.asked n).next? = some (.error e, w'))
    (later : n < k) : (w.asked k).next? = none ∧ w.asked k = w.asked (n + 1) := by
  have ended : (w.asked (n + 1)).next? = none := by
    rw [asked_succ]
    rcases stopped with none | ⟨e, w', fault⟩
    · rw [advance_of_none none, none]
    · rw [advance_of_some fault]
      exact next?_of_next?_error fault
  obtain ⟨m, rfl⟩ := Nat.exists_eq_add_of_le' later
  have same : w.asked (m + (n + 1)) = w.asked (n + 1) := by
    have split : w.asked (m + (n + 1)) = (w.asked (n + 1)).asked m :=
      Function.iterate_add_apply advance m (n + 1) w
    rw [split, asked_of_none ended]
  exact ⟨same ▸ ended, same⟩

theorem results_collect_of_ok {i : Instruction} (next : w.next? = some (.ok i, w')) :
    (collect w).results = .ok i :: (collect w').results := by
  rw [collect_of_ok next]
  rfl

theorem results_collect_of_error {e : PatchError} (next : w.next? = some (.error e, w')) :
    (collect w).results = [.error e] := by
  rw [collect_of_error next]
  rfl

theorem results_collect_of_none (next : w.next? = none) : (collect w).results = [] := by
  rw [collect_of_none next]
  rfl

/-- Walking to the end collects what the walk gives when it is asked over and over. -/
theorem next?_asked (w : Walk) (n : Nat) :
    (w.asked n).next?.map Prod.fst = (collect w).results[n]? := by
  induction w using Walk.induction generalizing n with
  | ended w next =>
    rw [asked_of_none next, next, results_collect_of_none next]
    rfl
  | fault w e w' next =>
    rw [results_collect_of_error next]
    cases n with
    | zero =>
      show w.next?.map Prod.fst = _
      rw [next]
      rfl
    | succ n =>
      have ended := next?_of_next?_error next
      rw [asked_succ', advance_of_some next, asked_of_none ended, ended]
      rfl
  | item w i w' next ih =>
    rw [results_collect_of_ok next]
    cases n with
    | zero =>
      show w.next?.map Prod.fst = _
      rw [next]
      rfl
    | succ n =>
      rw [asked_succ', advance_of_some next, ih, List.getElem?_cons_succ]

/-- Each instruction, and a fault at the end, takes one of the positions before the limit. -/
theorem length_results_le (w : Walk) : (collect w).results.length ≤ w.limit - w.position := by
  induction w using Walk.induction with
  | ended w next =>
    rw [results_collect_of_none next]
    exact Nat.zero_le _
  | fault w e w' next =>
    have before := (running_of_next? next).2
    rw [results_collect_of_error next, List.length_singleton]
    omega
  | item w i w' next ih =>
    obtain ⟨-, before, r, read, rfl⟩ := next?_eq_ok_iff.mp next
    have moved : w.position < r.offset := Instruction.offset_lt_of_read read
    rw [results_collect_of_ok next, List.length_cons]
    simp only [position] at ih moved before ⊢
    omega

end Walk

end Stream

/-- A patch that is parsed has at most as many instructions, a fault counted, as there are bytes
between its header and its footer, and asking its walk over and over gives these and then no more.
The walk never leaves the patch. Each instruction begins where the one before ended, in front of the
footer, takes at least one byte and produces at least one; one that reaches into the footer is the
last, and so is a fault. From then on the walk stays as it is. -/
theorem next?_of_parse {bytes : Bytes} {p : Patch} (parsed : Patch.parse bytes = .ok p) :
    let limit := bytes.length - Footer.size
    let w := p.walk.asked
    p.stream.results.length ≤ limit - p.body.offset ∧
      (∀ n, (w n).next?.map Prod.fst = p.stream.results[n]?) ∧
      (w 0).position = p.body.offset ∧ (∀ n, (w n).position ≤ bytes.length) ∧
      (∀ n i w', (w n).next? = some (.ok i, w') → w (n + 1) = w' ∧
        Stream.Walk.Yields bytes limit (w n).position w'.position i ∧
        (limit ≤ w'.position → w'.next? = none)) ∧
      (∀ n e w', (w n).next? = some (.error e, w') → w (n + 1) = w' ∧
        (w n).position < limit ∧ w'.next? = none) ∧
      ∀ n, (w n).next? = none ∨ (∃ e w', (w n).next? = some (.error e, w')) →
        ∀ k, n < k → (w k).next? = none ∧ w k = w (n + 1) := by
  intro limit w
  obtain ⟨rfl, header, -⟩ := Patch.parse_eq_ok_iff.mp parsed
  obtain ⟨-, -, -, opening⟩ := Patch.readHeader_eq_ok_iff.mp header
  have start : p.walk.reader.On p.bytes := opening.on (Reader.on_start p.bytes)
  have stands (n : Nat) : (w n).reader.On p.bytes ∧ (w n).limit = limit :=
    Stream.Walk.on_asked start n
  have moved {n : Nat} {result : Except PatchError Instruction} {w' : Stream.Walk}
      (next : (w n).next? = some (result, w')) : w (n + 1) = w' :=
    (Stream.Walk.asked_succ ..).trans (Stream.Walk.advance_of_some next)
  refine ⟨Stream.Walk.length_results_le _, Stream.Walk.next?_asked _, rfl,
    fun n => (stands n).1.inside, ?_, ?_, fun n stopped k => Stream.Walk.asked_of_stopped stopped⟩
  · intro n i w' next
    have yields := Stream.Walk.yields_of_next? (stands n).1 next
    rw [(stands n).2] at yields
    have there := (stands (n + 1)).2
    rw [moved next] at there
    refine ⟨moved next, yields, fun behind => ?_⟩
    exact Stream.Walk.next?_eq_none_iff.mpr (.inr (there ▸ behind))
  · intro n e w' next
    have before := (Stream.Walk.running_of_next? next).2
    rw [(stands n).2] at before
    exact ⟨moved next, before, Stream.Walk.next?_of_next?_error next⟩

/-- An instruction, the opening of a literal, its first byte, and the footer. -/
def intoFooter (opening : UInt8) : Bytes :=
  signature ++ [0x80, 0x8D, 0x80, 0x80, opening, 0x61] ++ List.replicate 12 0

/-- A literal of twelve bytes takes eleven of them from the footer, and nothing is read behind it.
One of sixteen bytes is cut off, and the walk stays behind its opening. -/
theorem next?_of_parse_intoFooter :
    (∃ p, Patch.parse (intoFooter 0xAD) = .ok p ∧
      ((p.walk.asked 1).next?.map Prod.fst =
        some (.ok (.targetRead (0x61 :: List.replicate 11 0)))) ∧
      (p.walk.asked 2).position = 21 ∧ (p.walk.asked 2).next? = none ∧
      p.walk.asked 7 = p.walk.asked 3) ∧
    ∃ p, Patch.parse (intoFooter 0xBD) = .ok p ∧
      ((p.walk.asked 1).next?.map Prod.fst = some (.error (.outOfBounds .patch 9 16))) ∧
      (p.walk.asked 7).next? = none ∧ p.walk.asked 7 = p.walk.asked 2 := by
  let parts (bytes : Bytes) : Patch := ⟨bytes, 0, 13, [], ⟨0, 0, 0⟩, ⟨7, bytes.drop 7⟩⟩
  constructor
  · let p := parts (intoFooter 0xAD)
    have parsed : Patch.parse (intoFooter 0xAD) = .ok p := by decide +kernel
    have results : p.stream.results =
        [.ok (.sourceRead 1), .ok (.targetRead (0x61 :: List.replicate 11 0))] := by
      decide +kernel
    obtain ⟨-, collected, -, -, yields, -, stays⟩ := next?_of_parse parsed
    have second : (p.walk.asked 1).next? = some (.ok (.targetRead (0x61 :: List.replicate 11 0)),
        ⟨⟨21, [0]⟩, 10, false⟩) := by
      decide +kernel
    obtain ⟨moved, -, last⟩ := yields 1 _ _ second
    have ended := last (by decide)
    rw [← moved] at ended
    refine ⟨p, parsed, (collected 1).trans (results ▸ rfl), congrArg _ moved, ended, ?_⟩
    exact (stays 2 (.inl ended) 7 (by decide)).2
  · let p := parts (intoFooter 0xBD)
    have parsed : Patch.parse (intoFooter 0xBD) = .ok p := by decide +kernel
    have fault : (p.walk.asked 1).next? = some (.error (.outOfBounds .patch 9 16),
        ⟨⟨9, (intoFooter 0xBD).drop 9⟩, 10, true⟩) := by
      decide +kernel
    obtain ⟨-, -, -, -, -, -, stays⟩ := next?_of_parse parsed
    obtain ⟨ended, stayed⟩ := stays 1 (.inr ⟨_, _, fault⟩) 7 (by decide)
    exact ⟨p, parsed, by rw [fault]; rfl, ended, stayed⟩

end BeatPatch
