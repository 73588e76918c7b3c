import BeatPatch.Instruction

/-!
# Where readings stop

A reading leaves its reader at some place whether it gives a result or fails there
(`Reading.stop`). Numbers, bytes and instructions go forward either way, and never past the end of
the patch (`Instruction.forward_read`).
-/

namespace BeatPatch

namespace Reading

variable {α β : Type} {x : Reading α} {r r' : Reader}

/-- Where a reading leaves the reader, with a result or without one. -/
def stop (x : Reading α) (r : Reader) : Reader :=
  match x r with
  | .ok _ r' | .error _ r' => r'

/-- The reading goes over bytes that are there, also if it fails. -/
def Forward (x : Reading α) : Prop :=
  ∀ r : Reader, ∃ taken, r.Consumes taken (x.stop r)

theorem stop_of_ok {a : α} (read : x r = .ok a r') : x.stop r = r' := by
  rw [stop, read]

theorem stop_of_error {e : PatchError} (failed : x r = .error e r') : x.stop r = r' := by
  rw [stop, failed]

theorem Forward.offset_le (forward : Forward x) (r : Reader) : r.offset ≤ (x.stop r).offset := by
  obtain ⟨taken, step⟩ := forward r
  rw [step.offset]
  exact Nat.le_add_right ..

/-- A reading that does not move its reader goes over no bytes. -/
theorem Forward.of_still (still : ∀ r, x.stop r = r) : Forward x := by
  intro r
  exact ⟨[], Reader.consumes_nil_iff.mpr (still r)⟩

theorem Forward.bind {f : α → Reading β} (first : Forward x) (next : ∀ a, Forward (f a)) :
    Forward (x >>= f) := by
  intro r
  obtain ⟨taken, step⟩ := first r
  cases read : x r with
  | ok a s =>
    rw [stop_of_ok read] at step
    obtain ⟨more, others⟩ := next a s
    have last : (x >>= f).stop r = (f a).stop s := by rw [stop, bind_of_ok read, stop]
    exact ⟨taken ++ more, last ▸ step.trans others⟩
  | error e s =>
    rw [stop_of_error read] at step
    exact ⟨taken, by rwa [stop_of_error (bind_of_error read f)]⟩

theorem Forward.map (forward : Forward x) (f : α → β) : Forward (f <$> x) := by
  rw [map_eq_pure_bind]
  exact forward.bind fun a => .of_still fun r => rfl

end Reading

theorem forward_readBytes (n : Nat) : Reading.Forward (readBytes n) := by
  intro r
  rcases Nat.lt_or_ge r.rest.length n with short | enough
  · rw [Reading.stop_of_error (readBytes_of_lt short)]
    exact ⟨[], Reader.consumes_nil_iff.mpr rfl⟩
  · have read := readBytes_of_le enough
    rw [Reading.stop_of_ok read]
    exact ⟨_, (readBytes_eq_ok_iff.mp read).2⟩

namespace Number

/-- Each byte that is looked at is passed, also the one at which a number is refused. -/
theorem forward_scan (start shift : Nat) (sum : UInt64) :
    Reading.Forward fun r => scan start shift sum r.offset r.rest := by
  rintro ⟨offset, bytes⟩
  induction bytes generalizing shift sum offset with
  | nil => exact ⟨[], Reader.consumes_nil_iff.mpr rfl⟩
  | cons byte rest ih =>
    have first : Reader.Consumes ⟨offset, byte :: rest⟩ [byte] ⟨offset + 1, rest⟩ := ⟨rfl, rfl⟩
    unfold Reading.stop scan
    dsimp only
    cases accumulate? sum shift byte with
    | none => exact ⟨[byte], first⟩
    | some larger =>
      by_cases last : isLast byte = true
      · simp only [if_pos last]
        exact ⟨[byte], first⟩
      · simp only [if_neg last]
        obtain ⟨taken, others⟩ := ih (shift + 7) larger (offset + 1)
        exact ⟨[byte] ++ taken, first.trans others⟩

theorem forward_readWord : Reading.Forward readWord :=
  fun r => forward_scan r.offset 0 0 r

theorem forward_readSigned : Reading.Forward readSigned := by
  rw [readSigned_eq]
  exact forward_readWord.map _

end Number

namespace Instruction

theorem forward_readPayload (length : Nat) (action : Action) :
    Reading.Forward (readPayload length action) := by
  cases action with
  | sourceRead => exact .of_still fun r => rfl
  | targetRead => exact (forward_readBytes length).map _
  | sourceCopy => exact Number.forward_readSigned.map _
  | targetCopy => exact Number.forward_readSigned.map _

theorem forward_read : Reading.Forward read := by
  have position : Reading.Forward (get : Reading Reader) := .of_still fun r => rfl
  refine position.bind fun start => Number.forward_readWord.bind fun word => ?_
  cases runLength? word with
  | none => exact .of_still fun r => rfl
  | some length => exact forward_readPayload length _

end Instruction

end BeatPatch
