import BeatPatch.Text.Hexadecimal

/-!
# Why a patch cannot be used

A patch fails for one of these causes. `isWrongInput` holds for the two that say the patch
is meant for another dump; only those are worth another attempt with a repaired dump.
`isCorruption` holds for the four that say the patch itself is damaged.
-/

namespace BeatPatch

/-- The buffers that an instruction addresses. -/
inductive Buffer where
  | source
  | target
  | patch
deriving DecidableEq, Repr

/-- The name of a buffer in messages. -/
def Buffer.name : Buffer → String
  | .source => "source"
  | .target => "target"
  | .patch => "patch"

/-- The checksums of the footer that are verified on request. -/
inductive StoredChecksum where
  | target
  | patch
deriving DecidableEq, Repr

/-- The name of a stored checksum in messages. -/
def StoredChecksum.name : StoredChecksum → String
  | .target => "target"
  | .patch => "patch"

/-- The causes for which a patch is not applied or not accepted. -/
inductive PatchError where
  /-- The signature is missing. -/
  | malformed
  /-- The dump has another size than the patch declares. -/
  | wrongInputSize (expected actual : Nat)
  /-- The dump has another checksum than the footer names. -/
  | wrongInputChecksum (expected actual : UInt32)
  /-- Some of the `length` bytes at `offset` lie outside the buffer. -/
  | outOfBounds (buffer : Buffer) (offset : Int) (length : Nat)
  /-- The number that starts at this offset of the patch needs more than 64 bits. -/
  | numberOverflow (offset : Nat)
  /-- Verification found another checksum than the footer stores. -/
  | checksumMismatch (what : StoredChecksum) (expected actual : UInt32)
  /-- The declared target is too large to be held in memory. -/
  | targetTooLarge (size : Nat)
deriving DecidableEq, Repr

/-- The first offset past those that a signed 64-bit word can hold, `2 ^ 63`. -/
def offsetBound : Nat := 0x8000000000000000

namespace PatchError

/-- Reports `length` bytes at `start`; a start beyond every signed 64-bit offset is named as
the largest of them. -/
def outside (buffer : Buffer) (start length : Nat) : PatchError :=
  .outOfBounds buffer (min start (offsetBound - 1) : Nat) length

/-- The text of an error. -/
def message : PatchError → String
  | .malformed => "Not a BPS patch"
  | .wrongInputSize expected actual =>
    s!"This patch is not intended for this ROM: expected {expected} bytes, got {actual}"
  | .wrongInputChecksum expected actual =>
    s!"This patch is not intended for this ROM: expected CRC32 {Text.checksum expected}, " ++
      s!"got {Text.checksum actual}"
  | .outOfBounds buffer offset length =>
    s!"Corrupt patch: {length} byte(s) at offset {offset} are outside the {buffer.name} buffer"
  | .numberOverflow offset =>
    s!"Corrupt patch: variable-length number at offset {offset} overflows"
  | .checksumMismatch what expected actual =>
    s!"Checksum mismatch for {what.name}: expected {Text.checksum expected}, " ++
      s!"got {Text.checksum actual}"
  | .targetTooLarge _ => "capacity overflow"

/-- The patch may be sound, but it is meant for another dump. -/
def isWrongInput : PatchError → Bool
  | .wrongInputSize .. | .wrongInputChecksum .. => true
  | _ => false

/-- The patch itself is damaged. -/
def isCorruption : PatchError → Bool
  | .malformed | .outOfBounds .. | .numberOverflow .. | .checksumMismatch .. => true
  | _ => false

end PatchError

end BeatPatch
