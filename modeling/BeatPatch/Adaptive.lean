import BeatPatch.Application
import BeatPatch.Family.SuperMarioBros2

/-!
# Adaptive application

A patch that does not fit a dump is tried again after a repair. If the patch is meant for a
known dump, its header is put on the program, or the program is first converted to the
revision it needs. Otherwise, or if that does not help, a copier header is taken off and
kept for the output. Only wrong inputs are worked around: a damaged patch fails at once, and
if nothing helps the error of the first attempt stands.
-/

namespace BeatPatch

/-- The size of the header that copiers put in front of a dump. -/
def copierHeaderSize : Nat := 512

/-- What the table of known dumps suggests for a dump that does not fit. -/
inductive Repair where
  /-- The patch is not for a known dump, or the dump is not related to it. -/
  | none
  /-- The dump has the right program under another header. -/
  | reheader (required : Version)
  /-- The dump is of another revision, which nothing converts. -/
  | unavailable (current required : Version)
  /-- The dump is of another revision; `conversion` fits it under the header of `canonical`. -/
  | convert (current canonical required : Version) (conversion : Bytes)
deriving DecidableEq, Repr

namespace Repair

/-- The repair for a dump of which the version `required` is needed. -/
def towards (family : Family) (source : Bytes) (required : Version) : Repair :=
  let checksum := programChecksum source
  if checksum = required.programChecksum then .reheader required
  else
    let related (v : Version) : Bool :=
      v.revision ≠ required.revision && v.programChecksum = checksum
    match (family.versions.map Prod.snd).find? related with
    | Option.none => .none
    | some current =>
      match family.conversion current.revision required.revision with
      | Option.none => .unavailable current required
      | some conversion =>
        match family.canonical current.revision with
        | Option.none => .none
        | some canonical => .convert current canonical required conversion

/-- The repair for a dump that a patch does not fit. -/
def find (family : Family) (source patch : Bytes) : Repair :=
  match (Footer.expectedSource patch).toOption.bind family.lookup with
  | Option.none => .none
  | some required => towards family source required

end Repair

/-- An attempt after a repair: `none` if the patch still does not fit. -/
def attempt (recovery : Recovery) (application : Logged Bytes) : Logged (Option Bytes) :=
  match application.result with
  | .ok target => ⟨.ok (some target), application.log ++ [.recovered recovery]⟩
  | .error e =>
    if e.isWrongInput then ⟨.ok none, application.log ++ [.unrecovered recovery e]⟩
    else ⟨.error e, application.log⟩

/-- Makes the repair that the table suggests and tries again. -/
def repairKnownDump (family : Family) (source patch : Bytes) : Logged (Option Bytes) :=
  match Repair.find family source patch with
  | .none => return none
  | .reheader required => do
    Logged.note (.otherHeader required.name)
    attempt .headerRepair (apply (required.reheader source) patch)
  | .unavailable current required => do
    Logged.note (.noConversion family.name current.revision required.revision)
    return none
  | .convert current canonical required conversion => do
    Logged.note (.converting family.name current.revision required.revision)
    match ← attempt .revisionConversion (apply (canonical.reheader source) conversion) with
    | none => return none
    | some converted => attempt .revisionConversion (apply (required.reheader converted) patch)

/-- Takes off a copier header, tries again, and puts it in front of the output. -/
def removeCopierHeader (source patch : Bytes) : Logged (Option Bytes) := do
  let target ← attempt .copierHeaderRemoval (apply (source.drop copierHeaderSize) patch)
  return target.map (source.take copierHeaderSize ++ ·)

/-- The repairs that are allowed, in order, until one has helped. -/
def tryRepairs (family : Family) (options : RecoveryOptions) (source patch : Bytes) :
    Logged (Option Bytes) := do
  let repaired ← if options.knownDumps then repairKnownDump family source patch else pure none
  match repaired with
  | some target => return some target
  | none => if options.copierHeader then removeCopierHeader source patch else return none

/-- Applies a patch to a dump, repairing the dump if the patch does not fit it. -/
def adaptiveApply (family : Family) (options : RecoveryOptions) (source patch : Bytes) :
    Logged Bytes :=
  let direct := apply source patch
  match direct.result with
  | .ok _ => direct
  | .error misfit =>
    if !misfit.isWrongInput then direct
    else do
      Logged.note (.directFailure misfit)
      match ← tryRepairs family options source patch with
      | some target => return target
      | none => Logged.fail misfit

end BeatPatch
