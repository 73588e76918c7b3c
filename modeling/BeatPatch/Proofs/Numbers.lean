import BeatPatch.Number
import Mathlib.Tactic.Ring

/-!
# The spelling of numbers

Every number below `2 ^ 64` is read back from its spelling, whatever follows it, and the bytes
that a reading consumes are the spelling of what it returns (`readWord_eq_ok_iff`). Both rest on
one equation for the 64-bit accumulator: as long as the shift is at most 63 it holds the exact
sum, or refuses it (`accumulate?_eq`). The signed code inherits both, but for the sign of zero
(`readSigned_eq_ok_iff_consumes`).
-/

namespace BeatPatch.Number

theorem bound_eq : bound = 2 ^ 64 := rfl

/-! ## The accumulator -/

theorem toNat_digit (byte : UInt8) :
    (digit byte).toNat = if isLast byte then byte.toNat - 128 else byte.toNat + 128 := by
  have xor : ∀ n : Fin 256, n.val ^^^ 128 = if 128 ≤ n.val then n.val - 128 else n.val + 128 := by
    decide +kernel
  simpa [digit, isLast, UInt8.le_iff_toNat_le] using xor ⟨byte.toNat, byte.toNat_lt⟩

/-- A shift that stays below 64 bits is refused exactly when the product takes more. -/
theorem shiftUp?_eq {word : UInt64} {shift : Nat} (small : shift < 64) :
    shiftUp? word shift =
      if word.toNat * 2 ^ shift < bound then some (UInt64.ofNat (word.toNat * 2 ^ shift))
      else none := by
  have up : (word <<< UInt64.ofNat shift).toNat = word.toNat * 2 ^ shift % 2 ^ 64 := by
    rw [UInt64.toNat_shiftLeft, UInt64.toNat_ofNat', Nat.mod_eq_of_lt (by omega : shift < 2 ^ 64),
      Nat.mod_eq_of_lt small, Nat.shiftLeft_eq]
  have down : ((word <<< UInt64.ofNat shift) >>> UInt64.ofNat shift).toNat =
      word.toNat * 2 ^ shift % 2 ^ 64 / 2 ^ shift := by
    rw [UInt64.toNat_shiftRight, up, UInt64.toNat_ofNat',
      Nat.mod_eq_of_lt (by omega : shift < 2 ^ 64), Nat.mod_eq_of_lt small,
      Nat.shiftRight_eq_div_pow]
  unfold shiftUp?
  rw [if_neg (by omega)]
  by_cases fits : word.toNat * 2 ^ shift < bound
  · rw [Nat.mod_eq_of_lt (bound_eq ▸ fits)] at up down
    rw [Nat.mul_div_cancel _ (Nat.two_pow_pos shift)] at down
    have moved : word <<< UInt64.ofNat shift = UInt64.ofNat (word.toNat * 2 ^ shift) := by
      rw [← up, UInt64.ofNat_toNat]
    rw [if_pos fits, ← moved]
    exact if_pos (UInt64.toNat_inj.mp down)
  · have lost : (word <<< UInt64.ofNat shift) >>> UInt64.ofNat shift ≠ word := by
      intro same
      have split : 2 ^ 64 = 2 ^ (64 - shift) * 2 ^ shift := by
        rw [← Nat.pow_add, Nat.sub_add_cancel (by omega)]
      have less : word.toNat < 2 ^ (64 - shift) := by
        rw [← same, down, Nat.div_lt_iff_lt_mul (Nat.two_pow_pos shift), ← split]
        exact Nat.mod_lt _ (by decide)
      apply fits
      rw [bound_eq, split]
      exact Nat.mul_lt_mul_of_pos_right less (Nat.two_pow_pos shift)
    rw [if_neg fits]
    exact if_neg lost

theorem add?_eq (a b : UInt64) :
    add? a b = if a.toNat + b.toNat < bound then some (UInt64.ofNat (a.toNat + b.toNat))
      else none := by
  have sum : a + b = UInt64.ofNat (a.toNat + b.toNat) := by simp
  rw [add?, sum]

/-- The guards on the shift, on its lost bits and on the sum come down to one: the exact sum
fits in 64 bits. The first of them is never needed, since a tenth byte that does not end the
number takes the sum past the bound. -/
theorem accumulate?_eq {sum : UInt64} {k : Nat} (byte : UInt8) (early : k ≤ 9) :
    accumulate? sum (7 * k) byte =
      if sum.toNat + (digit byte).toNat * 128 ^ k < bound then
        some (UInt64.ofNat (sum.toNat + (digit byte).toNat * 128 ^ k))
      else none := by
  have place : (2 : Nat) ^ (7 * k) = 128 ^ k := by rw [Nat.pow_mul]
  rw [accumulate?, shiftUp?_eq (by omega), place]
  by_cases fits : (digit byte).toNat * 128 ^ k < bound
  · have same : (UInt64.ofNat ((digit byte).toNat * 128 ^ k)).toNat =
        (digit byte).toNat * 128 ^ k := by
      exact UInt64.toNat_ofNat_of_lt' fits
    rw [if_pos fits, Option.bind_some, add?_eq, same]
  · rw [if_neg fits, Option.bind_none, if_neg (by omega)]

/-- As long as the sum fits, at most nine bytes have continued the number. -/
theorem early_of_fits {d k : Nat} (large : 128 ≤ d) (fits : d * 128 ^ k < bound) : k + 1 ≤ 9 := by
  have power : 128 ^ (k + 1) < 128 ^ 10 :=
    calc 128 ^ (k + 1) = 128 * 128 ^ k := Nat.pow_succ'
      _ ≤ d * 128 ^ k := Nat.mul_le_mul_right _ large
      _ < bound := fits
      _ < 128 ^ 10 := by decide
  have := (Nat.pow_lt_pow_iff_right (by decide : 1 < 128)).mp power
  omega

/-! ## Bytes -/

theorem isLast_iff {byte : UInt8} : isLast byte = true ↔ 128 ≤ byte.toNat := by
  simp [isLast, UInt8.le_iff_toNat_le]

theorem toNat_ofNat_of_lt {n : Nat} (h : n < 256) : (UInt8.ofNat n).toNat = n := by
  rw [UInt8.toNat_ofNat', Nat.mod_eq_of_lt h]

theorem isLast_ofNat {n : Nat} (h : n < 128) : isLast (UInt8.ofNat (n + 128)) = true := by
  rw [isLast_iff, toNat_ofNat_of_lt (by omega)]
  omega

theorem digit_last {n : Nat} (h : n < 128) : (digit (UInt8.ofNat (n + 128))).toNat = n := by
  rw [toNat_digit, if_pos (isLast_ofNat h), toNat_ofNat_of_lt (by omega)]
  omega

theorem not_isLast_ofNat {n : Nat} (h : n < 128) : ¬ isLast (UInt8.ofNat n) = true := by
  rw [isLast_iff, toNat_ofNat_of_lt (by omega)]
  omega

theorem digit_more {n : Nat} (h : n < 128) : (digit (UInt8.ofNat n)).toNat = n + 128 := by
  rw [toNat_digit, if_neg (not_isLast_ofNat h), toNat_ofNat_of_lt (by omega)]

theorem encode_length_pos (n : Nat) : 0 < (encode n).length := by
  rw [encode]
  split <;> simp

/-- A byte that ends a number is the spelling of its digit. -/
theorem encode_digit {byte : UInt8} (last : isLast byte = true) :
    encode (digit byte).toNat = [byte] := by
  have low := byte.toNat_lt
  have high := isLast_iff.mp last
  rw [toNat_digit, if_pos last, encode, if_pos (by omega), Nat.sub_add_cancel high,
    UInt8.ofNat_toNat]

/-- A byte that continues a number is the first of the spelling it continues. -/
theorem encode_digit_add {byte : UInt8} (more : ¬ isLast byte = true) (m : Nat) :
    encode ((digit byte).toNat + 128 * m) = byte :: encode m := by
  have low := mt isLast_iff.mpr more
  rw [toNat_digit, if_neg more, encode, if_neg (by omega)]
  have first : (byte.toNat + 128 + 128 * m) % 128 = byte.toNat := by omega
  have others : (byte.toNat + 128 + 128 * m) / 128 - 1 = m := by omega
  rw [first, others, UInt8.ofNat_toNat]

/-! ## Reading -/

theorem scan_encode (n : Nat) {start k offset : Nat} {sum : UInt64} {rest : Bytes} (early : k ≤ 9)
    (fits : sum.toNat + n * 128 ^ k < bound) :
    scan start (7 * k) sum offset (encode n ++ rest) =
      .ok (UInt64.ofNat (sum.toNat + n * 128 ^ k)) ⟨offset + (encode n).length, rest⟩ := by
  induction n using encode.induct generalizing k sum offset with
  | case1 n small =>
    rw [encode, if_pos small, List.singleton_append, scan, accumulate?_eq _ early,
      digit_last small, if_pos fits]
    exact if_pos (isLast_ofNat small)
  | case2 n large ih =>
    have low : n % 128 < 128 := Nat.mod_lt _ (by decide)
    obtain ⟨m, split⟩ : ∃ m, n = (n % 128 + 128) + 128 * m := ⟨n / 128 - 1, by omega⟩
    have next : n / 128 - 1 = m := by omega
    have whole : n * 128 ^ k = (n % 128 + 128) * 128 ^ k + m * 128 ^ (k + 1) := by
      conv => lhs; rw [split]
      ring
    have first : sum.toNat + (n % 128 + 128) * 128 ^ k < bound := by omega
    have sum' : (UInt64.ofNat (sum.toNat + (n % 128 + 128) * 128 ^ k)).toNat =
        sum.toNat + (n % 128 + 128) * 128 ^ k := by
      exact UInt64.toNat_ofNat_of_lt' first
    have later : k + 1 ≤ 9 := early_of_fits (d := n) (by omega) (by omega)
    rw [next] at ih
    rw [encode, if_neg large, next, List.cons_append, scan, accumulate?_eq _ early,
      digit_more low, if_pos first]
    refine (if_neg (not_isLast_ofNat low)).trans ?_
    rw [← Nat.mul_succ, ih later (by rw [sum']; omega), sum', List.length_cons, whole,
      Nat.add_assoc, Nat.add_assoc, Nat.add_comm 1]

/-- What is read has been spelled. -/
theorem encode_of_scan {start k offset : Nat} {sum word : UInt64} {bytes : Bytes} {r : Reader}
    (early : k ≤ 9) (read : scan start (7 * k) sum offset bytes = .ok word r) :
    ∃ n, word.toNat = sum.toNat + n * 128 ^ k ∧ bytes = encode n ++ r.rest ∧
      r.offset = offset + (encode n).length := by
  induction bytes generalizing k sum offset with
  | nil => simp [scan] at read
  | cons byte rest ih =>
    rw [scan, accumulate?_eq byte early] at read
    by_cases fits : sum.toNat + (digit byte).toNat * 128 ^ k < bound
    · have sum' : (UInt64.ofNat (sum.toNat + (digit byte).toNat * 128 ^ k)).toNat =
          sum.toNat + (digit byte).toNat * 128 ^ k := by
        exact UInt64.toNat_ofNat_of_lt' fits
      rw [if_pos fits] at read
      by_cases last : isLast byte = true
      · simp only [if_pos last] at read
        cases read
        refine ⟨(digit byte).toNat, sum', ?_, ?_⟩ <;> rw [encode_digit last] <;> rfl
      · simp only [if_neg last] at read
        have large : 128 ≤ (digit byte).toNat := by rw [toNat_digit, if_neg last]; omega
        obtain ⟨m, value, spelled, position⟩ :=
          ih (k := k + 1) (early_of_fits large (by omega)) read
        refine ⟨(digit byte).toNat + 128 * m, ?_, ?_, ?_⟩
        · rw [value, sum']; ring
        · rw [encode_digit_add last, spelled, List.cons_append]
        · rw [encode_digit_add last, position, List.length_cons]; omega
    · rw [if_neg fits] at read
      cases read

/-- A number is read from its spelling and from nothing else. -/
theorem readWord_eq_ok_iff {word : UInt64} {r r' : Reader} :
    readWord r = .ok word r' ↔ r.Consumes (encode word.toNat) r' := by
  constructor
  · intro read
    obtain ⟨n, value, spelled, position⟩ := encode_of_scan (k := 0) (by omega) read
    have same : word.toNat = n := by simpa using value
    rw [same]
    exact ⟨spelled, position⟩
  · rintro ⟨spelled, position⟩
    have fits : (0 : UInt64).toNat + word.toNat * 128 ^ 0 < bound := by
      simpa [bound_eq] using word.toNat_lt
    have scanned : scan r.offset (7 * 0) 0 r.offset (encode word.toNat ++ r'.rest) = _ :=
      scan_encode word.toNat (by omega) fits
    rw [← spelled, ← position] at scanned
    simpa [readWord] using scanned

theorem read_eq_ok_iff_consumes {n : Nat} {r r' : Reader} :
    read r = .ok n r' ↔ n < bound ∧ r.Consumes (encode n) r' := by
  rw [read_eq_ok_iff]
  constructor
  · rintro ⟨word, read, rfl⟩
    exact ⟨word.toNat_lt, readWord_eq_ok_iff.mp read⟩
  · rintro ⟨fits, spelled⟩
    have same : (UInt64.ofNat n).toNat = n := by
      exact UInt64.toNat_ofNat_of_lt' fits
    exact ⟨UInt64.ofNat n, readWord_eq_ok_iff.mpr (by rwa [same]), same⟩

/-! ## Signed numbers -/

/-- The number that stands for a signed one: the sign below the magnitude. -/
def unsigned (i : Int) : Nat := 2 * i.natAbs + if i < 0 then 1 else 0

theorem unsigned_lt {i : Int} (near : i.natAbs < offsetBound) : unsigned i < bound := by
  simp only [unsigned, offsetBound, bound] at *
  split <;> omega

theorem encodeSigned_eq {i : Int} (near : i.natAbs < offsetBound) :
    encodeSigned i = encode (unsigned i) := by
  have fits : 2 * i.natAbs < bound := by simp only [offsetBound, bound] at *; omega
  rw [encodeSigned, Nat.mod_eq_of_lt fits, unsigned]

theorem signed_eq (word : UInt64) :
    signed word = if word.toNat % 2 = 0 then ((word.toNat / 2 : Nat) : Int)
      else -((word.toNat / 2 : Nat) : Int) := by
  have half : (word >>> 1).toNat = word.toNat / 2 := by
    rw [UInt64.toNat_shiftRight, Nat.shiftRight_eq_div_pow]
    rfl
  have low : word &&& 1 = 0 ↔ word.toNat % 2 = 0 := by
    rw [← UInt64.toNat_inj, UInt64.toNat_and]
    exact Nat.and_one_is_mod word.toNat ▸ Iff.rfl
  simp only [signed, half, low]

theorem natAbs_signed_lt (word : UInt64) : (signed word).natAbs < offsetBound := by
  have := word.toNat_lt
  rw [signed_eq, offsetBound]
  split <;> omega

/-- Only zero has two signs. -/
theorem signed_eq_iff {word : UInt64} {i : Int} :
    signed word = i ↔ word.toNat = unsigned i ∨ i = 0 ∧ word.toNat = 1 := by
  rw [signed_eq, unsigned]
  split <;> split <;> omega

/-- A signed number is read from its spelling, and zero also from that of a negative zero. -/
theorem readSigned_eq_ok_iff_consumes {i : Int} {r r' : Reader} :
    readSigned r = .ok i r' ↔ i.natAbs < offsetBound ∧
      (r.Consumes (encodeSigned i) r' ∨ i = 0 ∧ r.Consumes [0x81] r') := by
  have negativeZero : encode 1 = [0x81] := by rw [encode, if_pos (by decide)]; rfl
  rw [readSigned_eq_ok_iff]
  constructor
  · rintro ⟨word, read, rfl⟩
    have near := natAbs_signed_lt word
    refine ⟨near, ?_⟩
    rw [readWord_eq_ok_iff] at read
    rcases signed_eq_iff.mp rfl with value | ⟨zero, value⟩
    · left; rwa [encodeSigned_eq near, ← value]
    · right; exact ⟨zero, by rwa [← negativeZero, ← value]⟩
  · rintro ⟨near, spelled⟩
    have same : (UInt64.ofNat (unsigned i)).toNat = unsigned i := by
      exact UInt64.toNat_ofNat_of_lt' (unsigned_lt near)
    rcases spelled with spelled | ⟨zero, spelled⟩
    · refine ⟨UInt64.ofNat (unsigned i), readWord_eq_ok_iff.mpr ?_, signed_eq_iff.mpr (.inl same)⟩
      rwa [same, ← encodeSigned_eq near]
    · rw [← negativeZero] at spelled
      exact ⟨1, readWord_eq_ok_iff.mpr spelled, signed_eq_iff.mpr (.inr ⟨zero, rfl⟩)⟩

end BeatPatch.Number
