import BeatPatch.Crc32
import BeatPatch.Stream

/-!
# Patches

A patch is the signature, the sizes of the dump and of the target, a block of metadata,
the instruction stream, and a footer of three checksums: of the dump, of the target and of
all of the patch before the last one. `Patch.parse` reads all but the instructions;
`Patch.stream` reads those. Nothing here needs the dump.
-/

namespace BeatPatch

/-- The checksums at the end of a patch. -/
structure Footer where
  source : UInt32
  target : UInt32
  patch : UInt32
deriving DecidableEq, Repr

namespace Footer

/-- The number of bytes a footer takes. -/
def size : Nat := 12

/-- The spelling of a footer. -/
def encode (f : Footer) : Bytes :=
  Bytes.ofWord f.source ++ Bytes.ofWord f.target ++ Bytes.ofWord f.patch

/-- Where the footer of a patch starts, which is also where its instructions end. -/
def start (patch : Bytes) : Except PatchError Nat :=
  if size ≤ patch.length then .ok (patch.length - size)
  else .error (.outOfBounds .patch (patch.length - size : Int) size)

/-- Reads the last bytes of a patch as a footer, whatever comes before them. -/
def read (patch : Bytes) : Except PatchError Footer := do
  let start ← start patch
  return ⟨patch.wordAt start, patch.wordAt (start + 4), patch.wordAt (start + 8)⟩

/-- The checksum that a patch expects of its dump, whatever comes before the footer. -/
def expectedSource (patch : Bytes) : Except PatchError UInt32 := do
  let start ← start patch
  return patch.wordAt start

end Footer

/-- A patch whose header and footer have been read. -/
structure Patch where
  /-- All bytes of the patch. -/
  bytes : Bytes
  /-- The declared size of the dump. -/
  sourceSize : Nat
  /-- The declared size of the target. -/
  targetSize : Nat
  /-- Free-form data, usually empty or a text. -/
  metadata : Bytes
  /-- The stored checksums. -/
  footer : Footer
  /-- The reader at the first instruction. -/
  body : Reader
deriving DecidableEq, Repr

namespace Patch

/-- Reads the header: the size of the dump, the size of the target and the metadata. -/
def readHeader : Reading (Nat × Nat × Bytes) := do
  readSignature
  let sourceSize ← Number.read
  let targetSize ← Number.read
  let metadataSize ← Number.read
  let metadata ← readBytes metadataSize
  return (sourceSize, targetSize, metadata)

/-- Reads the header and the footer of a patch. -/
def parse (bytes : Bytes) : Except PatchError Patch :=
  match readHeader (Reader.start bytes) with
  | .ok (sourceSize, targetSize, metadata) body => do
    let footer ← Footer.read bytes
    return { bytes, sourceSize, targetSize, metadata, footer, body }
  | .error e _ => .error e

/-- A walk over the instructions, which end where the footer starts. -/
def walk (p : Patch) : Stream.Walk := { reader := p.body, limit := p.bytes.length - Footer.size }

/-- The instructions. -/
def stream (p : Patch) : Stream := p.walk.collect

/-- The metadata as text, unless it is empty or not UTF-8. -/
def metadataText? (p : Patch) : Option String :=
  if p.metadata = [] then none else String.fromUTF8? ⟨p.metadata.toArray⟩

/-- Compares a stored checksum with the one computed. -/
def verify (what : StoredChecksum) (expected actual : UInt32) : Except PatchError Unit :=
  if actual = expected then .ok () else .error (.checksumMismatch what expected actual)

/-- Checks the patch against its own checksum. -/
def verifyPatch (p : Patch) : Except PatchError Unit :=
  verify .patch p.footer.patch (crc32 (p.bytes.take (p.bytes.length - 4)))

/-- Checks produced data against the checksum of the target. -/
def verifyTarget (p : Patch) (target : Bytes) : Except PatchError Unit :=
  verify .target p.footer.target (crc32 target)

end Patch

end BeatPatch
