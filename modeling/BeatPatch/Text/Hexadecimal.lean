/-!
# Hexadecimal text

Checksums are printed as eight lower-case hexadecimal digits.
-/

namespace BeatPatch.Text

/-- The low `digits` hexadecimal digits of `n`, leading zeros included. -/
def hexadecimal (digits n : Nat) : String :=
  String.ofList ((List.range digits).reverse.map fun i => Nat.digitChar (n >>> (4 * i) % 16))

/-- A checksum as patch tools print it. -/
def checksum (w : UInt32) : String := hexadecimal 8 w.toNat

end BeatPatch.Text
