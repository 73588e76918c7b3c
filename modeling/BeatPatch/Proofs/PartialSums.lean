import BeatPatch.Proofs.Numbers
import BeatPatch.Proofs.Stops

/-!
# Partial sums of a number

While a number is read, the word holds the exact sum of the digits so far (`Pending.readWord_eq`).
How the reading ends depends on these sums alone: at the byte that ends the number, at the first
byte whose sum takes more than 64 bits, or at the end of the patch, whichever comes first
(`readWord_eq_partialSum`).
-/

namespace BeatPatch.Number

/-- The exact sum of what the first `n` bytes contribute, each at its place. -/
def partialSum (data : Bytes) (n : Nat) : Nat :=
  ((data.take n).mapIdx fun i byte => (byte ^^^ 0x80).toNat * 128 ^ i).sum

/-- A number goes on behind the first `n` bytes: none of them ends it, and every sum of theirs fits
in 64 bits. -/
structure Pending (data : Bytes) (n : Nat) : Prop where
  inside : n ≤ data.length
  more : ∀ byte ∈ data.take n, ¬ isLast byte = true
  fits : ∀ m ≤ n, partialSum data m < 2 ^ 64

instance (data : Bytes) : DecidablePred (Pending data) := fun n =>
  -- The bytes are gone through, not all values of a byte.
  have : Decidable (∀ byte ∈ data.take n, ¬ isLast byte = true) := List.decidableBAll _ _
  decidable_of_iff (n ≤ data.length ∧ (∀ byte ∈ data.take n, ¬ isLast byte = true) ∧
      ∀ m ≤ n, partialSum data m < 2 ^ 64)
    ⟨fun ⟨inside, more, fits⟩ => ⟨inside, more, fits⟩,
      fun ⟨inside, more, fits⟩ => ⟨inside, more, fits⟩⟩

/-- Byte `n` ends a number that went on up to it, and the whole sum fits. -/
structure EndsAt (data : Bytes) (n : Nat) : Prop where
  pending : Pending data n
  last : ∃ byte, data[n]? = some byte ∧ isLast byte = true
  fits : partialSum data (n + 1) < 2 ^ 64

/-- At byte `n`, whether it ends the number or not, the sum no longer fits. -/
structure OverflowsAt (data : Bytes) (n : Nat) : Prop where
  pending : Pending data n
  inside : n < data.length
  exceeds : 2 ^ 64 ≤ partialSum data (n + 1)

/-- The number goes on behind the last byte there is. -/
def RunsOut (data : Bytes) : Prop := Pending data data.length

/-! ## Sums -/

theorem partialSum_zero (data : Bytes) : partialSum data 0 = 0 := by
  simp [partialSum]

theorem partialSum_succ {data : Bytes} {n : Nat} {byte : UInt8} (at_n : data[n]? = some byte) :
    partialSum data (n + 1) = partialSum data n + (digit byte).toNat * 128 ^ n := by
  have inside : n < data.length := (List.getElem?_eq_some_iff.mp at_n).1
  have size : (data.take n).length = n := List.length_take_of_le (Nat.le_of_lt inside)
  rw [partialSum, List.take_add_one, at_n, List.mapIdx_append, List.sum_append]
  simp [size, partialSum, digit]

/-- A byte that continues a number counts for at least one at the next place. -/
theorem pow_le_partialSum {data : Bytes} {n : Nat} {byte : UInt8} (at_n : data[n]? = some byte)
    (more : ¬ isLast byte = true) : 128 ^ (n + 1) ≤ partialSum data (n + 1) := by
  have large : 128 ≤ (digit byte).toNat := by
    rw [toNat_digit, if_neg more]
    omega
  have scaled := Nat.mul_le_mul_right (128 ^ n) large
  rw [partialSum_succ at_n, Nat.pow_succ']
  omega

/-! ## Going on -/

theorem pending_zero (data : Bytes) : Pending data 0 where
  inside := Nat.zero_le _
  more := by simp
  fits := by
    intro m none
    obtain rfl := Nat.le_zero.mp none
    rw [partialSum_zero]
    decide

theorem pending_succ_iff {data : Bytes} {n : Nat} :
    Pending data (n + 1) ↔ Pending data n ∧
      (∃ byte, data[n]? = some byte ∧ ¬ isLast byte = true) ∧ partialSum data (n + 1) < 2 ^ 64 := by
  constructor
  · intro ⟨inside, more, fits⟩
    have here : data[n]? = some data[n] := List.getElem?_eq_getElem inside
    rw [List.take_add_one, here] at more
    refine ⟨⟨Nat.le_of_lt inside, ?_, ?_⟩, ⟨data[n], here, ?_⟩, fits _ (Nat.le_refl _)⟩
    · intro byte mem
      exact more byte (List.mem_append_left _ mem)
    · intro m before
      exact fits m (Nat.le_succ_of_le before)
    · exact more _ (List.mem_append_right _ List.mem_cons_self)
  · rintro ⟨⟨-, more, fits⟩, ⟨byte, here, goes⟩, next⟩
    have inside : n < data.length := (List.getElem?_eq_some_iff.mp here).1
    refine ⟨inside, ?_, ?_⟩
    · intro other mem
      rw [List.take_add_one, here] at mem
      rcases List.mem_append.mp mem with before | same
      · exact more other before
      · obtain rfl : other = byte := by simpa using same
        exact goes
    · intro m before
      rcases Nat.lt_or_eq_of_le before with earlier | rfl
      · exact fits m (Nat.le_of_lt_succ earlier)
      · exact next

/-- At most nine bytes continue a number. -/
theorem Pending.le_nine {data : Bytes} {n : Nat} (pending : Pending data n) : n ≤ 9 := by
  cases n with
  | zero => omega
  | succ n =>
    obtain ⟨-, ⟨byte, here, more⟩, fits⟩ := pending_succ_iff.mp pending
    have power : 128 ^ (n + 1) < 128 ^ 10 :=
      calc 128 ^ (n + 1) ≤ partialSum data (n + 1) := pow_le_partialSum here more
        _ < 2 ^ 64 := fits
        _ < 128 ^ 10 := by decide
    have := (Nat.pow_lt_pow_iff_right (by decide : 1 < 128)).mp power
    omega

/-- The word after one more byte: the guards of the sum ask whether the exact sum fits. -/
theorem Pending.accumulate?_eq {data : Bytes} {n : Nat} {byte : UInt8} (pending : Pending data n)
    (here : data[n]? = some byte) :
    accumulate? (UInt64.ofNat (partialSum data n)) (7 * n) byte =
      if partialSum data (n + 1) < 2 ^ 64 then some (UInt64.ofNat (partialSum data (n + 1)))
      else none := by
  have held : (UInt64.ofNat (partialSum data n)).toNat = partialSum data n :=
    UInt64.toNat_ofNat_of_lt' (pending.fits n (Nat.le_refl n))
  rw [Number.accumulate?_eq byte pending.le_nine, held, partialSum_succ here, bound_eq]

/-- Where a byte is still to be read, the rest starts with it. -/
theorem drop_eq_cons {data : Bytes} {n : Nat} {byte : UInt8} (here : data[n]? = some byte) :
    data.drop n = byte :: data.drop (n + 1) := by
  obtain ⟨inside, rfl⟩ := List.getElem?_eq_some_iff.mp here
  exact List.drop_eq_getElem_cons inside

/-- As long as a number goes on, the word holds the exact sum of its bytes so far. -/
theorem Pending.readWord_eq {data : Bytes} {n : Nat} (pending : Pending data n) (p : Nat) :
    readWord ⟨p, data⟩ =
      scan p (7 * n) (UInt64.ofNat (partialSum data n)) (p + n) (data.drop n) := by
  induction n with
  | zero => rw [partialSum_zero]; rfl
  | succ n ih =>
    obtain ⟨before, ⟨byte, here, more⟩, fits⟩ := pending_succ_iff.mp pending
    rw [ih before, drop_eq_cons here, scan, before.accumulate?_eq here, if_pos fits]
    exact if_neg more

/-! ## Endings -/

section Endings

variable {data : Bytes} {n : Nat}

theorem EndsAt.readWord_eq (ends : EndsAt data n) (p : Nat) :
    readWord ⟨p, data⟩ =
      .ok (UInt64.ofNat (partialSum data (n + 1))) ⟨p + (n + 1), data.drop (n + 1)⟩ := by
  obtain ⟨pending, ⟨byte, here, last⟩, fits⟩ := ends
  rw [pending.readWord_eq, drop_eq_cons here, scan, pending.accumulate?_eq here, if_pos fits]
  exact if_pos last

theorem OverflowsAt.readWord_eq (overflows : OverflowsAt data n) (p : Nat) :
    readWord ⟨p, data⟩ = .error (.numberOverflow p) ⟨p + (n + 1), data.drop (n + 1)⟩ := by
  obtain ⟨pending, inside, exceeds⟩ := overflows
  have here : data[n]? = some data[n] := List.getElem?_eq_getElem inside
  rw [pending.readWord_eq, drop_eq_cons here, scan, pending.accumulate?_eq here,
    if_neg (Nat.not_lt_of_le exceeds)]
  rfl

theorem RunsOut.readWord_eq (runsOut : RunsOut data) (p : Nat) :
    readWord ⟨p, data⟩ =
      .error (.outside .patch (p + data.length) 1) ⟨p + data.length, []⟩ := by
  rw [Pending.readWord_eq runsOut, List.drop_length, scan]

/-- A number goes on, or it has ended or overflowed before. -/
theorem pending_or_stops (inside : n ≤ data.length) :
    Pending data n ∨ ∃ m, EndsAt data m ∨ OverflowsAt data m := by
  induction n with
  | zero => exact .inl (pending_zero data)
  | succ n ih =>
    rcases ih (Nat.le_of_lt inside) with pending | stopped
    · have here : data[n]? = some data[n] := List.getElem?_eq_getElem inside
      rcases Nat.lt_or_ge (partialSum data (n + 1)) (2 ^ 64) with fits | exceeds
      · by_cases last : isLast data[n] = true
        · exact .inr ⟨n, .inl ⟨pending, ⟨_, here, last⟩, fits⟩⟩
        · exact .inl (pending_succ_iff.mpr ⟨pending, ⟨_, here, last⟩, fits⟩)
      · exact .inr ⟨n, .inr ⟨pending, inside, exceeds⟩⟩
    · exact .inr stopped

/-- A reading ends in one of three ways. -/
theorem ends_or_overflows_or_runsOut (data : Bytes) :
    (∃ n, EndsAt data n) ∨ (∃ n, OverflowsAt data n) ∨ RunsOut data := by
  rcases pending_or_stops (Nat.le_refl data.length) with pending | ⟨n, ends | overflows⟩
  · exact .inr (.inr pending)
  · exact .inl ⟨n, ends⟩
  · exact .inr (.inl ⟨n, overflows⟩)

end Endings

/-- Reading a number looks at no more than ten bytes. -/
theorem stop_readWord_le (p : Nat) (data : Bytes) : (readWord.stop ⟨p, data⟩).offset ≤ p + 10 := by
  rcases ends_or_overflows_or_runsOut data with ⟨n, ends⟩ | ⟨n, overflows⟩ | runsOut
  · have early := ends.pending.le_nine
    rw [Reading.stop_of_ok (ends.readWord_eq p)]
    dsimp only
    omega
  · have early := overflows.pending.le_nine
    rw [Reading.stop_of_error (overflows.readWord_eq p)]
    dsimp only
    omega
  · have early := Pending.le_nine runsOut
    rw [Reading.stop_of_error (runsOut.readWord_eq p)]
    dsimp only
    omega

theorem readWord_eq_ok_iff_endsAt {p : Nat} {data : Bytes} {word : UInt64} {r : Reader} :
    readWord ⟨p, data⟩ = .ok word r ↔ ∃ n, EndsAt data n ∧
      word.toNat = partialSum data (n + 1) ∧ r = ⟨p + (n + 1), data.drop (n + 1)⟩ := by
  constructor
  · intro read
    rcases ends_or_overflows_or_runsOut data with ⟨n, ends⟩ | ⟨n, overflows⟩ | runsOut
    · rw [ends.readWord_eq p] at read
      cases read
      exact ⟨n, ends, UInt64.toNat_ofNat_of_lt' ends.fits, rfl⟩
    · rw [overflows.readWord_eq p] at read
      cases read
    · rw [runsOut.readWord_eq p] at read
      cases read
  · rintro ⟨n, ends, sum, rfl⟩
    rw [ends.readWord_eq p, ← sum, UInt64.ofNat_toNat]

theorem readWord_eq_error_iff {p : Nat} {data : Bytes} {e : PatchError} {r : Reader} :
    readWord ⟨p, data⟩ = .error e r ↔
      (∃ n, OverflowsAt data n ∧ e = .numberOverflow p ∧
        r = ⟨p + (n + 1), data.drop (n + 1)⟩) ∨
      RunsOut data ∧ e = .outside .patch (p + data.length) 1 ∧ r = ⟨p + data.length, []⟩ := by
  constructor
  · intro failed
    rcases ends_or_overflows_or_runsOut data with ⟨n, ends⟩ | ⟨n, overflows⟩ | runsOut
    · rw [ends.readWord_eq p] at failed
      cases failed
    · rw [overflows.readWord_eq p] at failed
      cases failed
      exact .inl ⟨n, overflows, rfl, rfl⟩
    · rw [runsOut.readWord_eq p] at failed
      cases failed
      exact .inr ⟨runsOut, rfl, rfl⟩
  · rintro (⟨n, overflows, rfl, rfl⟩ | ⟨runsOut, rfl, rfl⟩)
    · exact overflows.readWord_eq p
    · exact runsOut.readWord_eq p

/-- Reading a number at a position of a patch looks at no more than ten bytes. It gives the full sum
exactly if a byte ends the number and no sum up to there takes more than 64 bits. It is refused
exactly if some sum does before that, and then just behind the first byte whose sum does, or if the
patch ends before that, and then at its end, whose offset is named as it is in any patch that can be
held. -/
theorem readWord_eq_partialSum {bytes : Bytes} {p : Nat} (within : p ≤ bytes.length) :
    let data := bytes.drop p
    (readWord.stop ⟨p, data⟩).offset ≤ p + 10 ∧
      (∀ word r, readWord ⟨p, data⟩ = .ok word r ↔ ∃ n, EndsAt data n ∧
        word.toNat = partialSum data (n + 1) ∧ r = ⟨p + (n + 1), data.drop (n + 1)⟩) ∧
      (∀ e r, readWord ⟨p, data⟩ = .error e r ↔
        (∃ n, OverflowsAt data n ∧ e = .numberOverflow p ∧
          r = ⟨p + (n + 1), data.drop (n + 1)⟩) ∨
        RunsOut data ∧ e = .outside .patch bytes.length 1 ∧ r = ⟨bytes.length, []⟩) ∧
      (bytes.length < offsetBound →
        PatchError.outside .patch bytes.length 1 = .outOfBounds .patch bytes.length 1) := by
  intro data
  have whole : bytes.length = p + data.length := by
    rw [List.length_drop]
    omega
  refine ⟨stop_readWord_le p data, fun word r => readWord_eq_ok_iff_endsAt, fun e r => ?_, ?_⟩
  · rw [whole]
    exact readWord_eq_error_iff
  · intro held
    rw [PatchError.outside, Nat.min_eq_left (Nat.le_sub_one_of_lt held)]

/-- Behind a first byte: ten bytes of which the last ends the number and takes the sum past 64 bits,
the same with a last byte that adds nothing, and two bytes that go on at the end of the patch. -/
theorem readWord_eq_partialSum_tenth :
    let front : Bytes := [0xFF, 0x7F, 0x7E, 0x7E, 0x7E, 0x7E, 0x7E, 0x7E, 0x7E, 0x7E]
    let short : Bytes := [0xFF, 0x00, 0x01]
    readWord ⟨1, (front ++ [0x81, 0x80]).drop 1⟩ = .error (.numberOverflow 1) ⟨11, [0x80]⟩ ∧
      readWord ⟨1, (front ++ [0x80, 0x80]).drop 1⟩ = .ok 0xFFFFFFFFFFFFFFFF ⟨11, [0x80]⟩ ∧
      readWord ⟨1, short.drop 1⟩ = .error (.outOfBounds .patch 3 1) ⟨3, []⟩ := by
  intro front short
  have overflows : OverflowsAt ((front ++ [0x81, 0x80]).drop 1) 9 :=
    ⟨by decide +kernel, by decide, by decide +kernel⟩
  have ends : EndsAt ((front ++ [0x80, 0x80]).drop 1) 9 :=
    ⟨by decide +kernel, ⟨0x80, by decide⟩, by decide +kernel⟩
  have sum : partialSum ((front ++ [0x80, 0x80]).drop 1) 10 = 0xFFFFFFFFFFFFFFFF := by
    decide +kernel
  have runsOut : RunsOut (short.drop 1) := by
    unfold RunsOut
    decide +kernel
  obtain ⟨-, -, failed, -⟩ := @readWord_eq_partialSum (front ++ [0x81, 0x80]) 1 (by decide)
  obtain ⟨-, read, -, -⟩ := @readWord_eq_partialSum (front ++ [0x80, 0x80]) 1 (by decide)
  obtain ⟨-, -, unfinished, named⟩ := @readWord_eq_partialSum short 1 (by decide)
  refine ⟨?_, ?_, ?_⟩
  · exact (failed _ _).mpr (.inl ⟨9, overflows, rfl, rfl⟩)
  · exact (read _ _).mpr ⟨9, ends, sum.symm, rfl⟩
  · rw [(unfinished _ _).mpr (.inr ⟨runsOut, rfl, rfl⟩), named (by decide)]
    rfl

end BeatPatch.Number
