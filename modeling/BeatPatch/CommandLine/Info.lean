import BeatPatch.CommandLine.Apply

/-!
# The info command

A report on a patch: sizes and checksums, the dump it is meant for if that is known, its
metadata, and on request how many instructions of each action it has and how much they
produce. Sums are kept in 64 bits; the command breaks off at one that does not fit, before
anything is said of the instructions.
-/

namespace BeatPatch.CommandLine

/-- How many instructions there are of an action, and how many bytes they produce. -/
structure Tally where
  count : UInt64 := 0
  bytes : UInt64 := 0
deriving DecidableEq, Repr

namespace Tally

/-- One more instruction with a run of this length, unless a sum takes more than 64 bits. -/
def add? (t : Tally) (length : Nat) : Option Tally := do
  return ⟨← Number.add? t.count 1, ← Number.add? t.bytes (UInt64.ofNat length)⟩

/-- The line of the report for an action. -/
def line (action : Action) (t : Tally) (total : UInt64) : String :=
  "  " ++ Text.padRight 11 action.name ++ " " ++ Text.padLeft 8 (toString t.count) ++
    " x  " ++ Text.padLeft 10 (Text.size t.bytes.toNat) ++
    "  " ++ Text.padLeft 6 (Text.share t.bytes.toNat total.toNat) ++ "\n"

end Tally

/-- The position of the tally of an action. -/
def slot : Action → Fin 4
  | .sourceRead => 0
  | .targetRead => 1
  | .sourceCopy => 2
  | .targetCopy => 3

/-- The tallies of all actions. -/
structure Tallies where
  slots : Vector Tally 4 := .replicate 4 {}
deriving DecidableEq, Repr

namespace Tallies

/-- The tally of an action. -/
def get (t : Tallies) (action : Action) : Tally := t.slots.get (slot action)

/-- Counts one more instruction, unless a sum takes more than 64 bits. -/
def add? (t : Tallies) (i : Instruction) : Option Tallies := do
  let tally ← (t.get i.action).add? i.length
  return ⟨t.slots.set (slot i.action) tally⟩

/-- Counts instructions, one after the other. -/
def of? (instructions : List Instruction) : Option Tallies := instructions.foldlM add? {}

/-- What the instructions of all actions produce, unless it takes more than 64 bits. -/
def total? (t : Tallies) : Option UInt64 :=
  Action.all.foldlM (fun total action => Number.add? total (t.get action).bytes) 0

end Tallies

/-- The report on the instructions. -/
def instructionReport (tallies : Tallies) (total : UInt64) : String :=
  "\nInstructions\n" ++
    String.join (Action.all.map fun action => Tally.line action (tallies.get action) total) ++
    s!"  Total output: {Text.size total.toNat}\n"

/-- The plan for the instructions. They are counted while the stream is walked, so that a sum that
does not fit ends the command before a fault behind it; the total is taken at the end. -/
def instructionPlan (s : Stream) : Plan :=
  match Tallies.of? s.instructions with
  | none => Plan.exhaust .total
  | some tallies =>
    match s.fault with
    | some fault => Plan.fail (.notDecoded fault.error)
    | none =>
      match tallies.total? with
      | none => Plan.exhaust .total
      | some total => { stdout := instructionReport tallies total }

/-- What is said of the dump that a patch is meant for. -/
def expectedReport (family : Family) (checksum : UInt32) : String :=
  match family.lookup checksum with
  | none => ""
  | some version =>
    let required := version.revision.name
    s!"Expected ROM: {version.name} ({required})\n" ++
      String.join ((family.missingConversions version.revision).map fun revision =>
        s!"Note: {revision.name} dumps cannot be converted to {required} in this build; " ++
          s!"only {required} dumps (any header) will apply\n")

/-- What is said of the metadata. -/
def metadataReport (p : Patch) : String :=
  match p.metadataText? with
  | some text => s!"\nMetadata\n{text}\n"
  | none =>
    if p.metadata = [] then ""
    else s!"\nMetadata: {Text.size p.metadata.length} of binary data\n"

/-- The report on a patch, but for its instructions. -/
def patchReport (family : Family) (path : Path) (p : Patch) : String :=
  let integrity := if p.verifyPatch.isOk then "ok" else "mismatch"
  "\nBPS Patch Information\n" ++
    s!"File: {path}\n" ++
    s!"Patch size: {Text.size p.bytes.length}\n" ++
    s!"Source: {Text.size p.sourceSize} (CRC32 {Text.checksum p.footer.source})\n" ++
    s!"Target: {Text.size p.targetSize} (CRC32 {Text.checksum p.footer.target})\n" ++
    s!"Patch CRC32: {Text.checksum p.footer.patch} ({integrity})\n" ++
    expectedReport family p.footer.source ++
    metadataReport p

/-- The plan of `info`, with these known dumps. -/
def infoPlan (family : Family) (files : Files) (a : InfoArguments) : Plan :=
  Plan.withFile files "patch" a.patch fun bytes =>
    match Patch.parse bytes with
    | .error e => Plan.fail (.notParsed a.patch e)
    | .ok p =>
      Plan.after (patchReport family a.patch p) [parsedRecord p] <|
        if a.instructions then instructionPlan p.stream else {}

end BeatPatch.CommandLine
