import BeatPatch.Bytes

/-!
# CRC-32

The reflected CRC-32 over the polynomial `0xEDB88320`. `Crc32.shiftBit` divides by the
polynomial one bit at a time; `Crc32.table` holds the effect of eight such shifts on each
low byte, and a running checksum consumes one byte per look-up. A `Crc32` is a value, so a
checksum in progress can be kept and continued in two ways.
-/

namespace BeatPatch

/-- A checksum in progress. -/
structure Crc32 where
  register : UInt32
deriving DecidableEq, Repr

namespace Crc32

/-- The generator polynomial with its bits reflected. -/
def polynomial : UInt32 := 0xEDB88320

/-- Shifts one bit out of the register, subtracting the polynomial if that bit was set. -/
def shiftBit (register : UInt32) : UInt32 :=
  if register &&& 1 = 0 then register >>> 1 else polynomial ^^^ (register >>> 1)

/-- Shifts `n` bits out of the register. -/
def shiftBits : Nat → UInt32 → UInt32
  | 0, register => register
  | n + 1, register => shiftBits n (shiftBit register)

/-- What eight shifts make of a register that holds just one byte. -/
def table : Vector UInt32 UInt8.size :=
  Vector.ofFn fun i => shiftBits 8 i.val.toUInt32

/-- The register after one more byte. -/
def step (register : UInt32) (byte : UInt8) : UInt32 :=
  (register >>> 8) ^^^ table.get (register.toUInt8 ^^^ byte).toFin

/-- The checksum before any byte. -/
def fresh : Crc32 := ⟨0xFFFFFFFF⟩

/-- Feeds more bytes into the checksum. -/
def update (crc : Crc32) (bytes : Bytes) : Crc32 := ⟨bytes.foldl step crc.register⟩

/-- The checksum of all bytes fed so far. -/
def checksum (crc : Crc32) : UInt32 := crc.register ^^^ 0xFFFFFFFF

@[simp] theorem update_nil (crc : Crc32) : crc.update [] = crc := rfl

theorem update_append (crc : Crc32) (a b : Bytes) :
    crc.update (a ++ b) = (crc.update a).update b := by
  simp [update, List.foldl_append]

end Crc32

/-- The CRC-32 of a byte string. -/
def crc32 (bytes : Bytes) : UInt32 := (Crc32.fresh.update bytes).checksum

end BeatPatch
