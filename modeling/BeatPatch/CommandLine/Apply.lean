import BeatPatch.Adaptive
import BeatPatch.CommandLine.Invocation
import BeatPatch.CommandLine.Plan
import BeatPatch.Text.Quantity

/-!
# The apply command

The output goes to the path that is given, or to that of the patch under the extension of
the dump. It is refused if it is spelt like the path of the dump. Verification happens
before anything is written: the patch against its own checksum, and the last bytes of the
output, as many as the target has, against that of the target.
-/

namespace BeatPatch.CommandLine

/-- Where the output goes if no path is given. -/
def defaultOutput (source patch : Path) : Path :=
  patch.withExtension (source.extension?.getD [])

/-- Where the output goes. -/
def ApplyArguments.outputPath (a : ApplyArguments) : Path :=
  a.output.getD (defaultOutput a.source a.patch)

/-- The part of the output that the patch has produced, which is all but a copier header. -/
def producedPart (p : Patch) (output : Bytes) : Bytes :=
  output.drop (output.length - p.targetSize)

/-- Checks a patch and an output against the stored checksums. -/
def verifyOutput (p : Patch) (output : Bytes) : Except Failure Unit :=
  match p.verifyPatch with
  | .error e => .error (.damagedPatch e)
  | .ok () =>
    match p.verifyTarget (producedPart p output) with
    | .error e => .error (.otherTarget e)
    | .ok () => .ok ()

/-- What is logged of a parsed patch. -/
def parsedRecord (p : Patch) : LogRecord :=
  .parsed p.sourceSize p.targetSize p.metadata.length p.footer.source

/-- Verifies an output if that is asked for, and goes on if it is sound. -/
def verifyThen (verify : Bool) (patch output : Bytes) (next : Plan) : Plan :=
  if !verify then next
  else
    match Patch.parse patch with
    | .error e => Plan.fail (.notVerified e)
    | .ok p =>
      Plan.after "" [parsedRecord p] <|
        match verifyOutput p output with
        | .error failure => Plan.fail failure
        | .ok () => next

/-- The plan of `apply`, with these known dumps. -/
def applyPlan (family : Family) (files : Files) (quiet : Bool) (a : ApplyArguments) : Plan :=
  Plan.withFile files "ROM" a.source fun source =>
  Plan.withFile files "patch" a.patch fun patch =>
    let path := a.outputPath
    if path.isSpeltLike a.source then Plan.fail (.overwritesSource a.source)
    else
      let applied := adaptiveApply family a.options source patch
      Plan.after "" (.applyCommand a.patch.toString a.options :: applied.log) <|
        match applied.result with
        | .error (.targetTooLarge _) => Plan.exhaust .memory
        | .error e => Plan.fail (.notApplied a.patch a.source e)
        | .ok output =>
          let announcement :=
            if quiet then ""
            else s!"✓ Patched {a.source} -> {path} ({Text.size output.length})\n"
          verifyThen a.verify patch output
            { output := some { path, bytes := output, announcement } }

end BeatPatch.CommandLine
