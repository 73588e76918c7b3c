import BeatPatch.Family.TestGame
import BeatPatch.Main
import BeatPatch.Proofs.Bitwise
import BeatPatch.Proofs.Bursts
import BeatPatch.Proofs.FileChecksums
import BeatPatch.Proofs.Independence
import BeatPatch.Proofs.Inspection
import BeatPatch.Proofs.Iteration
import BeatPatch.Proofs.Locality
import BeatPatch.Proofs.MissingConversions
import BeatPatch.Proofs.Overwriting
import BeatPatch.Proofs.PartialSums
import BeatPatch.Proofs.PathEncodings
import BeatPatch.Proofs.PeriodicRuns
import BeatPatch.Proofs.Positions
import BeatPatch.Proofs.PrefixCode
import BeatPatch.Proofs.Provenance
import BeatPatch.Proofs.RoundTrip
import BeatPatch.Proofs.SignedNumbers
import BeatPatch.Proofs.Stamps
import BeatPatch.Proofs.Totals
import BeatPatch.Proofs.TrapFreedom
import BeatPatch.Proofs.Verification
import BeatPatch.Proofs.WrongInputs
