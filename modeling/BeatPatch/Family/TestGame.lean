import BeatPatch.Assembly
import BeatPatch.Family

/-!
# A made-up game

Three small generated dumps of two revisions, in the shape of a real family: the first
revision under two headers, the second under one, and conversion patches both ways.
-/

namespace BeatPatch.TestGame

/-- The plain header. -/
def inesHeader : Vector UInt8 headerSize :=
  #v[0x4e, 0x45, 0x53, 0x1a, 0x02, 0x01, 0x00, 0x00,
    0x00, 0x00, 0x00, 0x00, 0x00, 0x00, 0x00, 0x00]

/-- The extended header. -/
def nes2Header : Vector UInt8 headerSize :=
  #v[0x4e, 0x45, 0x53, 0x1a, 0x02, 0x01, 0x00, 0x08,
    0x00, 0x00, 0x07, 0x00, 0x00, 0x00, 0x00, 0x01]

/-- The program of the first revision. -/
def program : Bytes := (List.range 4096).map fun i => UInt8.ofNat (i * 31 % 251)

/-- The first revision under the plain header. -/
def rev0 : Bytes := inesHeader.toList ++ program

/-- The first revision under the extended header. -/
def rev0Nes2 : Bytes := nes2Header.toList ++ program

/-- Where the second revision differs. -/
def revisedOffset : Nat := 100

/-- What the second revision holds there. -/
def revisedData : Bytes := List.replicate 10 0xEE

/-- The second revision. -/
def revA : Bytes := Patch.stamped rev0 revisedOffset revisedData

/-- The patch from the first revision to the second. -/
def rev0ToRevA : Option Bytes :=
  (Patch.stamp rev0 revisedOffset revisedData).toOption.map Prod.fst

/-- The patch from the second revision to the first. -/
def revAToRev0 : Option Bytes :=
  (Patch.stamp revA revisedOffset ((rev0.drop revisedOffset).take revisedData.length)).toOption.map
    Prod.fst

/-- A known dump of the game. -/
def version (name : String) (revision : Revision) (header : Vector UInt8 headerSize)
    (dump : Bytes) : UInt32 × Version :=
  (crc32 dump, { name, revision, programChecksum := programChecksum dump, header })

/-- The known dumps of the made-up game. -/
def family : Family where
  name := "Test Game"
  versions := [
    version "Test Game (PRG0).nes" .rev0 inesHeader rev0,
    version "Test Game (NES 2.0).nes" .rev0 nes2Header rev0Nes2,
    version "Test Game (Rev A).nes" .revA inesHeader revA]
  conversions := [⟨.rev0, .revA, rev0ToRevA⟩, ⟨.revA, .rev0, revAToRev0⟩]

end BeatPatch.TestGame
