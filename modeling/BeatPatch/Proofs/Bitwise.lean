import BeatPatch.Proofs.Checksums
import Mathlib.Logic.Function.Basic
import Mathlib.Logic.Function.Iterate

/-!
# CRC-32 one bit at a time

The definition of CRC-32 knows no table: a byte is added to the low end of the register, which is
then shifted eight times, with the polynomial added for every bit that falls out set
(`Crc32.bitwise`). The checksum of a byte string is this one, and so is that of a running checksum,
in whatever pieces its bytes have come and wherever it has been copied from
(`Crc32.checksum_eq_bitwise`).
-/

namespace BeatPatch

namespace Crc32

/-! ## The definition -/

/-- Shifts the register down by one bit, and adds the polynomial if that bit was set. -/
def shiftOut (register : BitVec 32) : BitVec 32 :=
  if register.getLsbD 0 then (register >>> 1) ^^^ 0xEDB88320#32 else register >>> 1

/-- Adds a byte to the low end of the register and shifts it out. -/
def absorb (register : BitVec 32) (byte : UInt8) : BitVec 32 :=
  shiftOut^[8] (register ^^^ byte.toBitVec.setWidth 32)

/-- The checksum of a byte string: all bits of the register are set at first and are inverted in
the end. -/
def bitwise (bytes : Bytes) : UInt32 := .ofBitVec (~~~ bytes.foldl absorb (.allOnes 32))

theorem toBitVec_shiftBit (register : UInt32) :
    (shiftBit register).toBitVec = shiftOut register.toBitVec := by
  have lowest : register.toBitVec.getLsbD 0 = decide ((register &&& 1).toNat = 1) := by
    rw [toNat_and_one]
    exact Nat.testBit_zero _
  rcases and_one_eq register with even | odd
  · rw [even] at lowest
    rw [shiftBit_of_even even, shiftOut, lowest]
    rfl
  · rw [odd] at lowest
    rw [shiftBit_of_odd odd, shiftOut, lowest, UInt32.xor_comm]
    rfl

theorem toBitVec_shiftBits (n : Nat) (register : UInt32) :
    (shiftBits n register).toBitVec = shiftOut^[n] register.toBitVec := by
  induction n generalizing register with
  | zero => rfl
  | succ n ih => rw [shiftBits, ih, toBitVec_shiftBit, Function.iterate_succ_apply]

/-- A look-up in the table is eight shifts. -/
theorem toBitVec_step (register : UInt32) (byte : UInt8) :
    (step register byte).toBitVec = absorb register.toBitVec byte := by
  rw [step_eq_shiftBits, toBitVec_shiftBits]
  rfl

theorem toBitVec_foldl_step (bytes : Bytes) (register : UInt32) :
    (bytes.foldl step register).toBitVec = bytes.foldl absorb register.toBitVec := by
  induction bytes generalizing register with
  | nil => rfl
  | cons byte rest ih => rw [List.foldl_cons, ih, toBitVec_step, List.foldl_cons]

/-- A fresh checksum that has taken in some bytes gives the checksum of these. -/
theorem checksum_update_fresh (bytes : Bytes) :
    (fresh.update bytes).checksum = bitwise bytes := by
  apply UInt32.toBitVec_inj.mp
  have register := toBitVec_foldl_step bytes fresh.register
  calc (fresh.update bytes).checksum.toBitVec
    _ = (bytes.foldl step fresh.register).toBitVec ^^^ .allOnes 32 := rfl
    _ = ~~~ bytes.foldl absorb (.allOnes 32) := by
      rw [register, BitVec.xor_allOnes]
      rfl

/-! ## Checksums that are kept and copied -/

/-- What is done with running checksums. They are kept in numbered places. -/
inductive Operation where
  /-- Puts a fresh checksum into a place. -/
  | start (place : Nat)
  /-- Feeds a chunk of bytes, which may be empty, to the checksum in a place. -/
  | feed (place : Nat) (chunk : Bytes)
  /-- Copies the checksum in a place into another place. -/
  | copy (source target : Nat)
deriving DecidableEq, Repr

section Places

variable {α : Type} (fresh : α) (feed : α → Bytes → α)

/-- What the places hold after an operation, where `fresh` is what a place starts with and `feed`
is how it takes in a chunk. -/
def Operation.perform (held : Nat → α) : Operation → Nat → α
  | .start place => Function.update held place fresh
  | .feed place chunk => Function.update held place (feed (held place) chunk)
  | .copy source target => Function.update held target (held source)

/-- What the places hold after some operations, if all of them were fresh before. -/
def held (operations : List Operation) : Nat → α :=
  operations.foldl (Operation.perform fresh feed) fun _ => fresh

end Places

section Images

variable {α β : Type} {fresh : α} {feed : α → Bytes → α} {fresh' : β} {feed' : β → Bytes → β}
  {image : α → β}

/-- An operation is carried along by a map that respects feeding. -/
theorem Operation.perform_image (start : image fresh = fresh')
    (fed : ∀ a chunk, image (feed a chunk) = feed' (image a) chunk) (operation : Operation)
    (held : Nat → α) :
    image ∘ operation.perform fresh feed held = operation.perform fresh' feed' (image ∘ held) := by
  cases operation with
  | start place => rw [perform, Function.comp_update, start]; rfl
  | feed place chunk => rw [perform, Function.comp_update, fed]; rfl
  | copy source target => rw [perform, Function.comp_update]; rfl

theorem held_image (start : image fresh = fresh')
    (fed : ∀ a chunk, image (feed a chunk) = feed' (image a) chunk)
    (operations : List Operation) (place : Nat) :
    image (held fresh feed operations place) = held fresh' feed' operations place := by
  have run : operations.foldl (Operation.perform fresh' feed') (image ∘ fun _ => fresh) =
      image ∘ held fresh feed operations :=
    List.foldl_hom (image ∘ ·) fun contents operation =>
      (Operation.perform_image start fed operation contents).symm
  have initial : (image ∘ fun _ : Nat => fresh) = fun _ => fresh' := funext fun _ => start
  rw [initial] at run
  exact (congrFun run place).symm

end Images

/-- Each place holds the checksum of all the bytes that led to it. -/
theorem update_held (operations : List Operation) (place : Nat) :
    fresh.update (held [] (· ++ ·) operations place) = held fresh update operations place :=
  held_image (update_nil fresh) (update_append fresh) operations place

theorem foldl_update (chunks : List Bytes) (crc : Crc32) :
    chunks.foldl update crc = crc.update chunks.flatten := by
  induction chunks generalizing crc with
  | nil => rfl
  | cons chunk rest ih => rw [List.foldl_cons, ih, List.flatten_cons, update_append]

/-- Every checksum is the one of the definition: that of a byte string, that of a checksum that is
fed chunk by chunk, and those of checksums that are fed and copied in any order, each for all the
bytes that it, or the one that it is a copy of, has been fed since it was fresh. -/
theorem checksum_eq_bitwise :
    (∀ bytes, crc32 bytes = bitwise bytes) ∧
      (∀ chunks : List Bytes, (chunks.foldl update fresh).checksum = bitwise chunks.flatten) ∧
      ∀ operations place, (held fresh update operations place).checksum =
        bitwise (held [] (· ++ ·) operations place) := by
  refine ⟨checksum_update_fresh, fun chunks => ?_, fun operations place => ?_⟩
  · rw [foldl_update, checksum_update_fresh]
  · rw [← update_held, checksum_update_fresh]

/-- The check value of CRC-32, the checksum of the digits from 1 to 9. -/
example : bitwise [0x31, 0x32, 0x33, 0x34, 0x35, 0x36, 0x37, 0x38, 0x39] = 0xCBF43926 := by
  decide +kernel

end Crc32

end BeatPatch
