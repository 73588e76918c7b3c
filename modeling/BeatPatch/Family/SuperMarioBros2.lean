import BeatPatch.Family

/-!
# Super Mario Bros. 2

Three dumps of two revisions; the first revision is also found under an NES 2.0 header.
The conversion patches are built in from files that may be missing, so that a build has any of
them or none.
-/

namespace BeatPatch

/-- The conversion patches of a build, each if it was there to be built in. -/
structure EmbeddedPatches where
  rev0ToRevA : Option Bytes := none
  revAToRev0 : Option Bytes := none
deriving DecidableEq, Repr

/-- The known dumps of Super Mario Bros. 2, with these conversion patches. -/
def Family.superMarioBros2 (embedded : EmbeddedPatches) : Family where
  name := "Super Mario Bros. 2"
  versions := [
    (0x7d3f6f3d,
      { name := "Super Mario Bros. 2 (U) (PRG0) [!].nes"
        revision := .rev0
        programChecksum := 0x57ac67af
        header := #v[0x4e, 0x45, 0x53, 0x1a, 0x08, 0x10, 0x40, 0x00,
          0x00, 0x00, 0x00, 0x00, 0x00, 0x00, 0x00, 0x00] }),
    (0x43507232,
      { name := "Super Mario Bros. 2 (USA).nes"
        revision := .rev0
        programChecksum := 0x57ac67af
        header := #v[0x4e, 0x45, 0x53, 0x1a, 0x08, 0x10, 0x40, 0x08,
          0x00, 0x00, 0x07, 0x00, 0x00, 0x00, 0x00, 0x01] }),
    (0xe0ca425c,
      { name := "Super Mario Bros. 2 (USA) (Rev A).nes"
        revision := .revA
        programChecksum := 0xca594ace
        header := #v[0x4e, 0x45, 0x53, 0x1a, 0x08, 0x10, 0x40, 0x00,
          0x00, 0x00, 0x00, 0x00, 0x00, 0x00, 0x00, 0x00] })]
  conversions := [⟨.rev0, .revA, embedded.rev0ToRevA⟩, ⟨.revA, .rev0, embedded.revAToRev0⟩]

end BeatPatch
