import BeatPatch.Patch

/-!
# Assembling patches

A patch is written from an explicit list of instructions; nothing is searched for. Two
small patches are built on this: one that leaves a dump as it is, and one that stamps bytes
over a part of it.
-/

namespace BeatPatch

/-- Why a patch is not assembled. -/
inductive AssemblyError where
  /-- An instruction produces no byte. -/
  | emptyRun
  /-- The bytes to stamp do not lie inside the dump. -/
  | stampOutside (offset length : Nat)
deriving DecidableEq, Repr

namespace Patch

/-- All of a patch before its instructions. -/
def encodeHeader (sourceSize targetSize : Nat) (metadata : Bytes) : Bytes :=
  signature ++ Number.encode sourceSize ++ Number.encode targetSize ++
    Number.encode metadata.length ++ metadata

/-- Appends the checksum of all that comes before it. -/
def withChecksum (bytes : Bytes) : Bytes := bytes ++ Bytes.ofWord (crc32 bytes)

/-- The patch with these instructions, made for `source` and declaring the size and checksum
of `target`. The instructions are not executed. -/
def assemble (source metadata : Bytes) (instructions : List Instruction) (target : Bytes) :
    Except AssemblyError Bytes :=
  if instructions.any (·.length = 0) then .error .emptyRun
  else .ok (withChecksum (encodeHeader source.length target.length metadata ++
    instructions.flatMap Instruction.encode ++
    Bytes.ofWord (crc32 source) ++ Bytes.ofWord (crc32 target)))

/-- One instruction that copies the next `length` bytes of the dump, or none for no bytes. -/
def keep (length : Nat) : List Instruction :=
  if length = 0 then [] else [.sourceRead length]

/-- The patch that leaves `source` as it is. -/
def identity (source : Bytes) : Except AssemblyError Bytes :=
  assemble source [] (keep source.length) source

/-- The source with `data` written over it at `offset`. -/
def stamped (source : Bytes) (offset : Nat) (data : Bytes) : Bytes :=
  source.take offset ++ data ++ source.drop (offset + data.length)

/-- The patch that writes `data` over `source` at `offset`, and the target it produces. -/
def stamp (source : Bytes) (offset : Nat) (data : Bytes) :
    Except AssemblyError (Bytes × Bytes) := do
  if source.length < offset + data.length then throw (.stampOutside offset data.length)
  let target := stamped source offset data
  let rest := source.length - offset - data.length
  let patch ← assemble source [] (keep offset ++ .targetRead data :: keep rest) target
  return (patch, target)

end Patch

end BeatPatch
