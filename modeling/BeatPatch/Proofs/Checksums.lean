import BeatPatch.Crc32
import Mathlib.Algebra.Group.Nat.Defs

/-!
# The algebra of CRC-32

Division by the polynomial is linear over exclusive or, for a bit and so for a byte
(`Crc32.step_xor`). What a head leaves in the register therefore goes through a tail as it would
go through as many zeros, and the checksum of the whole is made of the checksums of head and tail
and of the length of the tail (`crc32_append`); the bytes themselves do not matter. The table only
saves shifts (`Crc32.step_eq_shiftBits`), and no shift makes two registers the same
(`Crc32.foldl_step_injective`).
-/

namespace BeatPatch

namespace Crc32

/-! ## Linearity -/

theorem and_one_xor (a b : UInt32) : (a ^^^ b) &&& 1 = (a &&& 1) ^^^ (b &&& 1) := by
  apply UInt32.toNat_inj.mp
  simp only [UInt32.toNat_and, UInt32.toNat_xor, Nat.and_xor_distrib_right]

theorem toNat_and_one (a : UInt32) : (a &&& 1).toNat = a.toNat % 2 := by
  rw [UInt32.toNat_and]
  exact Nat.and_one_is_mod _

theorem and_one_eq (a : UInt32) : a &&& 1 = 0 ∨ a &&& 1 = 1 := by
  rcases Nat.mod_two_eq_zero_or_one a.toNat with even | odd
  · exact .inl (UInt32.toNat_inj.mp ((toNat_and_one a).trans even))
  · exact .inr (UInt32.toNat_inj.mp ((toNat_and_one a).trans odd))

theorem shiftBit_of_even {a : UInt32} (even : a &&& 1 = 0) : shiftBit a = a >>> 1 := if_pos even

theorem shiftBit_of_odd {a : UInt32} (odd : a &&& 1 = 1) :
    shiftBit a = polynomial ^^^ (a >>> 1) := by
  rw [shiftBit, odd]
  rfl

/-- Two registers shifted at once: if both lose a bit, the polynomials cancel out. -/
theorem shiftBit_xor (a b : UInt32) : shiftBit (a ^^^ b) = shiftBit a ^^^ shiftBit b := by
  have low := and_one_xor a b
  rcases and_one_eq a with even | odd <;> rcases and_one_eq b with even' | odd'
  · rw [even, even'] at low
    rw [shiftBit_of_even low, shiftBit_of_even even, shiftBit_of_even even', UInt32.shiftRight_xor]
  · rw [even, odd'] at low
    rw [shiftBit_of_odd low, shiftBit_of_even even, shiftBit_of_odd odd', UInt32.shiftRight_xor]
    ac_rfl
  · rw [odd, even'] at low
    rw [shiftBit_of_odd low, shiftBit_of_odd odd, shiftBit_of_even even', UInt32.shiftRight_xor]
    ac_rfl
  · rw [odd, odd'] at low
    rw [shiftBit_of_even low, shiftBit_of_odd odd, shiftBit_of_odd odd', UInt32.shiftRight_xor,
      UInt32.xor_comm polynomial, UInt32.xor_assoc, ← UInt32.xor_assoc polynomial,
      UInt32.xor_self, UInt32.zero_xor]

theorem shiftBits_xor (n : Nat) (a b : UInt32) :
    shiftBits n (a ^^^ b) = shiftBits n a ^^^ shiftBits n b := by
  induction n generalizing a b with
  | zero => rfl
  | succ n ih => rw [shiftBits, shiftBit_xor, ih]; rfl

/-- The table holds what eight shifts make of a byte. -/
theorem table_get (byte : UInt8) : table.get byte.toFin = shiftBits 8 byte.toUInt32 := by
  have entry : table.get byte.toFin = shiftBits 8 byte.toFin.val.toUInt32 :=
    Vector.getElem_ofFn byte.toFin.isLt
  have word : byte.toFin.val.toUInt32 = byte.toUInt32 := by
    apply UInt32.toNat_inj.mp
    rw [UInt8.toNat_toUInt32]
    exact Nat.mod_eq_of_lt (Nat.lt_trans byte.toNat_lt (by decide))
  rw [entry, word]

/-- Consumes one byte by shifts, without the table. -/
def shiftByte (register : UInt32) (byte : UInt8) : UInt32 :=
  (register >>> 8) ^^^ shiftBits 8 (register.toUInt8 ^^^ byte).toUInt32

theorem step_eq (register : UInt32) (byte : UInt8) :
    step register byte = shiftByte register byte := by
  rw [step, table_get, shiftByte]

/-- Consuming a byte is linear in the register and the byte together. -/
theorem step_xor (a b : UInt32) (x y : UInt8) :
    step (a ^^^ b) (x ^^^ y) = step a x ^^^ step b y := by
  have index : (a ^^^ b).toUInt8 ^^^ (x ^^^ y) = (a.toUInt8 ^^^ x) ^^^ (b.toUInt8 ^^^ y) := by
    rw [UInt32.toUInt8_xor]
    ac_rfl
  simp only [step_eq, shiftByte, index, UInt8.toUInt32_xor, shiftBits_xor, UInt32.shiftRight_xor]
  ac_rfl

/-! ## Shifts without the table -/

theorem toNat_shiftRight_one (a : UInt32) : (a >>> 1).toNat = a.toNat / 2 := by
  rw [UInt32.toNat_shiftRight, Nat.shiftRight_eq_div_pow]
  rfl

/-- Bits that are not set are shifted out without a trace. -/
theorem toNat_shiftBits_of_dvd {n : Nat} {a : UInt32} (clear : 2 ^ n ∣ a.toNat) :
    (shiftBits n a).toNat = a.toNat / 2 ^ n := by
  induction n generalizing a with
  | zero => rw [shiftBits, Nat.pow_zero, Nat.div_one]
  | succ n ih =>
    obtain ⟨high, value⟩ := clear
    rw [Nat.pow_succ', Nat.mul_assoc] at value
    have even : a &&& 1 = 0 := by
      apply UInt32.toNat_inj.mp
      rw [toNat_and_one, value]
      exact Nat.mul_mod_right ..
    have half : (a >>> 1).toNat = 2 ^ n * high := by
      rw [toNat_shiftRight_one, value, Nat.mul_div_cancel_left _ (by decide)]
    rw [shiftBits, shiftBit_of_even even, ih ⟨high, half⟩, toNat_shiftRight_one, Nat.pow_succ',
      Nat.div_div_eq_div_mul]

/-- A register is its low byte beside the other three. -/
theorem low_xor_high (a : UInt32) : a.toUInt8.toUInt32 ^^^ a >>> 8 <<< 8 = a := by
  apply UInt32.toBitVec_inj.mp
  apply BitVec.eq_of_getLsbD_eq
  intro i inside
  simp only [UInt32.toBitVec_xor, UInt8.toBitVec_toUInt32, UInt32.toBitVec_toUInt8,
    UInt32.toBitVec_shiftLeft, UInt32.toBitVec_shiftRight, BitVec.getLsbD_xor,
    BitVec.getLsbD_setWidth]
  by_cases low : i < 8
  · simp [low, inside]
  · simp [low, inside, Nat.add_sub_cancel' (Nat.le_of_not_lt low)]

theorem shiftBits_high (a : UInt32) : shiftBits 8 (a >>> 8 <<< 8) = a >>> 8 := by
  have value : (a >>> 8 <<< 8).toNat = 2 ^ 8 * (a >>> 8).toNat := by
    have := a.toNat_lt
    simp only [UInt32.toNat_shiftLeft, UInt32.toNat_shiftRight, UInt32.reduceToNat, Nat.reduceMod,
      Nat.shiftLeft_eq, Nat.shiftRight_eq_div_pow]
    omega
  apply UInt32.toNat_inj.mp
  rw [toNat_shiftBits_of_dvd ⟨_, value⟩, value, Nat.mul_div_cancel_left _ (by decide)]

/-- To consume a byte is to add it to the register and to shift eight bits out. The table holds
what becomes of the low byte; the others are only moved down. -/
theorem step_eq_shiftBits (register : UInt32) (byte : UInt8) :
    step register byte = shiftBits 8 (register ^^^ byte.toUInt32) :=
  calc step register byte
    _ = shiftBits 8 (register >>> 8 <<< 8) ^^^
        shiftBits 8 (register.toUInt8.toUInt32 ^^^ byte.toUInt32) := by
      rw [step_eq, shiftByte, shiftBits_high, UInt8.toUInt32_xor]
    _ = shiftBits 8 (register ^^^ byte.toUInt32) := by
      rw [← shiftBits_xor, ← UInt32.xor_assoc, UInt32.xor_comm (register >>> 8 <<< 8),
        low_xor_high]

/-! ## Registers that differ -/

/-- Only a register of zeros is shifted to zeros: where a bit is lost, the polynomial sets the
highest one. -/
theorem eq_zero_of_shiftBit {a : UInt32} (zero : shiftBit a = 0) : a = 0 := by
  have small := a.toNat_lt
  rcases and_one_eq a with even | odd
  -- no bit is lost, so the register is the double of zero
  · have half := congrArg UInt32.toNat ((shiftBit_of_even even).symm.trans zero)
    have low := congrArg UInt32.toNat even
    rw [toNat_shiftRight_one, UInt32.toNat_zero] at half
    rw [toNat_and_one, UInt32.toNat_zero] at low
    apply UInt32.toNat_inj.mp
    rw [UInt32.toNat_zero]
    omega
  -- half of a register is less than the polynomial
  · have same := UInt32.xor_eq_zero_iff.mp ((shiftBit_of_odd odd).symm.trans zero)
    have half := congrArg UInt32.toNat same
    rw [toNat_shiftRight_one, show polynomial.toNat = 0xEDB88320 from rfl] at half
    omega

theorem shiftBit_injective : Function.Injective shiftBit := by
  intro a b same
  apply UInt32.xor_eq_zero_iff.mp
  apply eq_zero_of_shiftBit
  rw [shiftBit_xor, same, UInt32.xor_self]

theorem shiftBits_injective (n : Nat) : Function.Injective (shiftBits n) := by
  induction n with
  | zero => exact fun _ _ same => same
  | succ n ih => exact fun _ _ same => shiftBit_injective (ih same)

/-- Registers that differ still do so behind a byte. -/
theorem step_injective (byte : UInt8) : Function.Injective (step · byte) := by
  intro a b same
  simp only [step_eq_shiftBits] at same
  exact (UInt32.xor_left_inj _).mp (shiftBits_injective 8 same)

/-- Registers that differ still do so behind any bytes. -/
theorem foldl_step_injective (bytes : Bytes) :
    Function.Injective fun register => bytes.foldl step register := by
  induction bytes with
  | nil => exact fun _ _ same => same
  | cons byte rest ih => exact fun _ _ same => step_injective byte (ih same)

/-! ## Concatenation -/

/-- What `n` zero bytes make of a register. -/
def pad (n : Nat) (register : UInt32) : UInt32 := (List.replicate n 0).foldl step register

/-- What is added to a register before some bytes is added to it behind them, padded to their
length. -/
theorem foldl_step_xor (a b : UInt32) (bytes : Bytes) :
    bytes.foldl step (a ^^^ b) = bytes.foldl step a ^^^ pad bytes.length b := by
  induction bytes generalizing a b with
  | nil => rfl
  | cons byte rest ih =>
    have first : step (a ^^^ b) byte = step a byte ^^^ step b 0 := by
      rw [← step_xor, UInt8.xor_zero]
    rw [List.foldl_cons, first, ih]
    rfl

/-- A register is a fresh one with the checksum so far added to it. -/
theorem register_eq (crc : Crc32) : crc.register = fresh.register ^^^ crc.checksum := by
  rw [checksum, UInt32.xor_comm crc.register, ← UInt32.xor_assoc]
  exact UInt32.zero_xor.symm

end Crc32

/-- The checksum computed without the table. -/
theorem crc32_eq_foldl (bytes : Bytes) :
    crc32 bytes = bytes.foldl Crc32.shiftByte 0xFFFFFFFF ^^^ 0xFFFFFFFF := by
  have steps : Crc32.shiftByte = Crc32.step :=
    funext fun register => funext fun byte => (Crc32.step_eq register byte).symm
  rw [steps]
  rfl

/-- The tail goes on from the register that the checksum of the head stands for. -/
theorem crc32_append_eq_foldl (head tail : Bytes) :
    crc32 (head ++ tail) =
      tail.foldl Crc32.step (Crc32.fresh.register ^^^ crc32 head) ^^^ 0xFFFFFFFF := by
  rw [crc32, crc32, Crc32.update_append, ← Crc32.register_eq]
  rfl

/-- The checksum of a whole is made of those of its parts and of the length of the second. -/
theorem crc32_append (head tail : Bytes) :
    crc32 (head ++ tail) = Crc32.pad tail.length (crc32 head) ^^^ crc32 tail := by
  rw [crc32_append_eq_foldl, Crc32.foldl_step_xor, UInt32.xor_comm (List.foldl ..),
    UInt32.xor_assoc]
  rfl

end BeatPatch
