/-!
# Recoveries

The ways in which a dump that does not fit a patch is repaired before another attempt, and
the choice of those that may be tried.
-/

namespace BeatPatch

/-- A way to repair a dump. -/
inductive Recovery where
  /-- Another header is put in front of the program. -/
  | headerRepair
  /-- The program is converted to another revision. -/
  | revisionConversion
  /-- The header of a copier is taken off. -/
  | copierHeaderRemoval
deriving DecidableEq, Repr

/-- The name of a recovery in reports. -/
def Recovery.name : Recovery → String
  | .headerRepair => "header repair"
  | .revisionConversion => "revision conversion"
  | .copierHeaderRemoval => "copier header removal"

/-- Which repairs may be tried. -/
structure RecoveryOptions where
  /-- Headers and revisions of known dumps. -/
  knownDumps : Bool := true
  /-- A copier header in front of the dump. -/
  copierHeader : Bool := true
deriving DecidableEq, Repr

/-- No repair at all. -/
def RecoveryOptions.strict : RecoveryOptions := ⟨false, false⟩

/-- The options as the log shows them. -/
def RecoveryOptions.describe (o : RecoveryOptions) : String :=
  s!"AdaptiveOptions \x7b try_smb2: {o.knownDumps}, try_smc: {o.copierHeader} \x7d"

end BeatPatch
