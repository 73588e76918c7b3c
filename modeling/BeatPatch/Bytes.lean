/-!
# Byte strings

Dumps and patches are lists of bytes. Checksums are stored in them as 32-bit words with
the least significant byte first.
-/

namespace BeatPatch

/-- The contents of a dump, of a patch, or of a part of one. -/
abbrev Bytes := List UInt8

namespace Bytes

/-- The four bytes of a word, the least significant first. -/
def ofWord (w : UInt32) : Bytes :=
  [w.toUInt8, (w >>> 8).toUInt8, (w >>> 16).toUInt8, (w >>> 24).toUInt8]

/-- The word stored at `offset`; bytes past the end read as zero. -/
def wordAt (bytes : Bytes) (offset : Nat) : UInt32 :=
  let stored := bytes.drop offset
  (stored.getD 0 0).toUInt32 ||| (stored.getD 1 0).toUInt32 <<< 8 |||
    (stored.getD 2 0).toUInt32 <<< 16 ||| (stored.getD 3 0).toUInt32 <<< 24

@[simp] theorem length_ofWord (w : UInt32) : (ofWord w).length = 4 := rfl

end Bytes

end BeatPatch
