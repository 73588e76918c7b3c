import BeatPatch.Proofs.Repairing
import BeatPatch.Proofs.Repairs

/-!
# Attempts after repairs

On behalf of a dump, a patch may also be applied to what the allowed repairs make of it
(`Candidate`). Whatever a family lists and its conversion patches do, a target comes from such a
candidate, which has the size and the checksum that the patch asks for (`adaptiveApply_sound`),
and a failure is that of the direct attempt or, if it is not for a wrong input, of one of the
retries (`adaptiveApply_error_of_attempt`).
-/

namespace BeatPatch

section Attempts

variable {family : Family} {options : RecoveryOptions} {source patch : Bytes}

/-- The dumps to which a patch may be applied on behalf of `source`, each with the recovery that
makes it: the dump itself, its program under the required header, the converted program under that
header, and the dump without a copier header. -/
inductive Candidate (family : Family) (options : RecoveryOptions) (source patch : Bytes) :
    Option Recovery → Bytes → Prop where
  | asIs : Candidate family options source patch none source
  | reheadered {required : Version} (allowed : options.knownDumps = true)
      (requires : family.Requires patch required)
      (program : programChecksum source = required.programChecksum) :
      Candidate family options source patch (some .headerRepair) (required.reheader source)
  | converted {canonical required : Version} {conversion output : Bytes}
      (allowed : options.knownDumps = true) (requires : family.Requires patch required)
      (converts : family.Converts source canonical required conversion)
      (done : (apply (canonical.reheader source) conversion).result = .ok output) :
      Candidate family options source patch (some .revisionConversion) (required.reheader output)
  | stripped (allowed : options.copierHeader = true) :
      Candidate family options source patch (some .copierHeaderRemoval)
        (source.drop copierHeaderSize)

/-- The applications, each of a patch to a dump, that may follow a direct one: of the patch to what
a repair makes of the dump, and of a conversion patch on the way to such a repair. -/
inductive Retry (family : Family) (options : RecoveryOptions) (source patch : Bytes) :
    Bytes → Bytes → Prop where
  | repaired {recovery : Recovery} {x : Bytes}
      (candidate : Candidate family options source patch (some recovery) x) :
      Retry family options source patch x patch
  | conversion {canonical required : Version} {conversion : Bytes}
      (allowed : options.knownDumps = true) (requires : family.Requires patch required)
      (converts : family.Converts source canonical required conversion) :
      Retry family options source patch (canonical.reheader source) conversion

/-- What is taken off a dump for a recovery and put back in front of the target. -/
def keptHeader (source : Bytes) : Option Recovery → Bytes
  | some .copierHeaderRemoval => source.take copierHeaderSize
  | _ => []

/-- What trying repairs may come to: no help; the target of a repaired dump; or a failure of one
of the retries, but never for a wrong input. -/
inductive Outcome (family : Family) (options : RecoveryOptions) (source patch : Bytes) :
    Except PatchError (Option Bytes) → Prop where
  | unhelpful : Outcome family options source patch (.ok none)
  | target {recovery : Recovery} {x target : Bytes}
      (candidate : Candidate family options source patch (some recovery) x)
      (applied : (apply x patch).result = .ok target) :
      Outcome family options source patch (.ok (some (keptHeader source recovery ++ target)))
  | failure {x p : Bytes} {e : PatchError} (retry : Retry family options source patch x p)
      (failed : (apply x p).result = .error e) (other : e.isWrongInput = false) :
      Outcome family options source patch (.error e)

theorem attempt_of_ok {recovery : Recovery} {application : Logged Bytes} {target : Bytes}
    (applied : application.result = .ok target) :
    (attempt recovery application).result = .ok (some target) := by
  simp only [attempt, applied]

theorem attempt_of_misfit {recovery : Recovery} {application : Logged Bytes} {e : PatchError}
    (failed : application.result = .error e) (wrong : e.isWrongInput = true) :
    (attempt recovery application).result = .ok none := by
  simp only [attempt, failed, wrong, if_true]

theorem attempt_of_error {recovery : Recovery} {application : Logged Bytes} {e : PatchError}
    (failed : application.result = .error e) (other : e.isWrongInput = false) :
    (attempt recovery application).result = .error e := by
  simp only [attempt, failed, other, Bool.false_eq_true, if_false]

/-- Unless it fails for a wrong input, an application decides. -/
theorem attempt_of_decisive {recovery : Recovery} {application : Logged Bytes}
    (decisive : ∀ e, application.result = .error e → e.isWrongInput = false) :
    (attempt recovery application).result = application.result.map some := by
  cases applied : application.result with
  | ok target => exact attempt_of_ok applied
  | error e => exact attempt_of_error applied (decisive e applied)

theorem result_of_attempt {recovery : Recovery} {application : Logged Bytes} {target : Bytes}
    (helped : (attempt recovery application).result = .ok (some target)) :
    application.result = .ok target := by
  cases applied : application.result with
  | ok output =>
    rw [attempt_of_ok applied] at helped
    cases helped
    rfl
  | error e =>
    cases wrong : e.isWrongInput with
    | true => rw [attempt_of_misfit applied wrong] at helped; cases helped
    | false => rw [attempt_of_error applied wrong] at helped; cases helped

/-- Applying the patch to a repaired dump. -/
theorem outcome_attempt {recovery : Recovery} {x : Bytes}
    (candidate : Candidate family options source patch (some recovery) x) :
    Outcome family options source patch
      ((attempt recovery (apply x patch)).result.map
        (Option.map (keptHeader source recovery ++ ·))) := by
  cases applied : (apply x patch).result with
  | ok target =>
    rw [attempt_of_ok applied]
    exact .target candidate applied
  | error e =>
    cases wrong : e.isWrongInput with
    | true =>
      rw [attempt_of_misfit applied wrong]
      exact .unhelpful
    | false =>
      rw [attempt_of_error applied wrong]
      exact .failure (.repaired candidate) applied wrong

/-- The same for a recovery that takes nothing off the dump. -/
theorem outcome_attempt_whole {recovery : Recovery} {x : Bytes}
    (candidate : Candidate family options source patch (some recovery) x)
    (whole : keptHeader source recovery = []) :
    Outcome family options source patch (attempt recovery (apply x patch)).result := by
  have outcome := outcome_attempt candidate
  have same : Option.map (keptHeader source recovery ++ ·) = id := by
    funext target
    cases target <;> simp [whole]
  rwa [same, Except.map_id] at outcome

theorem outcome_repairKnownDump (allowed : options.knownDumps = true) :
    Outcome family options source patch (repairKnownDump family source patch).result := by
  unfold repairKnownDump
  cases found : Repair.find family source patch with
  | none => exact .unhelpful
  | reheader required =>
    obtain ⟨requires, program⟩ := Repair.find_eq_reheader_iff.mp found
    simp only [Logged.bind_result, Logged.note_result]
    exact outcome_attempt_whole (.reheadered allowed requires program) rfl
  | unavailable current required => exact .unhelpful
  | convert current canonical required conversion =>
    obtain ⟨requires, converts⟩ := Repair.find_eq_convert_iff.mp ⟨current, found⟩
    simp only [Logged.bind_result, Logged.note_result]
    cases done : (apply (canonical.reheader source) conversion).result with
    | ok output =>
      rw [attempt_of_ok done]
      exact outcome_attempt_whole (.converted allowed requires converts done) rfl
    | error e =>
      cases wrong : e.isWrongInput with
      | true =>
        rw [attempt_of_misfit done wrong]
        exact .unhelpful
      | false =>
        rw [attempt_of_error done wrong]
        exact .failure (.conversion allowed requires converts) done wrong

theorem outcome_removeCopierHeader (allowed : options.copierHeader = true) :
    Outcome family options source patch (removeCopierHeader source patch).result := by
  unfold removeCopierHeader
  rw [Logged.bind_result]
  exact outcome_attempt (.stripped allowed)

theorem Outcome.ifAllowed {allowed : Bool} {repair : Logged (Option Bytes)}
    (outcome : allowed = true → Outcome family options source patch repair.result) :
    Outcome family options source patch (ifAllowed allowed repair).result := by
  cases allowed with
  | true => exact outcome rfl
  | false => exact .unhelpful

theorem outcome_tryRepairs :
    Outcome family options source patch (tryRepairs family options source patch).result := by
  have first : Outcome family options source patch _ := .ifAllowed outcome_repairKnownDump
  have second : Outcome family options source patch _ := .ifAllowed outcome_removeCopierHeader
  rw [tryRepairs_eq, orThen_result]
  generalize (BeatPatch.ifAllowed options.knownDumps _).result = repaired at first
  cases first with
  | unhelpful => exact second
  | target candidate applied => exact .target candidate applied
  | failure retry failed other => exact .failure retry failed other

end Attempts

/-! ## Adaptive application -/

section Adaptive

variable {family : Family} {options : RecoveryOptions} {source patch : Bytes}

/-- What an adaptive application may come to: the result of the direct attempt; the target of a
repaired dump behind what was taken off it; or the failure of a retry, but not for a wrong input. -/
inductive Ending (family : Family) (options : RecoveryOptions) (source patch : Bytes) :
    Except PatchError Bytes → Prop where
  | direct {result : Except PatchError Bytes} (same : (apply source patch).result = result) :
      Ending family options source patch result
  | repaired {recovery : Recovery} {x target : Bytes}
      (candidate : Candidate family options source patch (some recovery) x)
      (applied : (apply x patch).result = .ok target) :
      Ending family options source patch (.ok (keptHeader source recovery ++ target))
  | failed {x p : Bytes} {e : PatchError} (retry : Retry family options source patch x p)
      (failure : (apply x p).result = .error e) (other : e.isWrongInput = false) :
      Ending family options source patch (.error e)

theorem ending_adaptiveApply :
    Ending family options source patch (adaptiveApply family options source patch).result := by
  rcases decisive_or_misfit (apply source patch).result with decisive | ⟨misfit, direct, wrong⟩
  · rw [adaptiveApply_eq_apply decisive]
    exact .direct rfl
  · rw [adaptiveApply_of_misfit direct wrong]
    have tried : Outcome family options source patch _ := outcome_tryRepairs
    generalize (tryRepairs family options source patch).result = outcome at tried ⊢
    cases tried with
    | unhelpful => exact .direct direct
    | target candidate applied => exact .repaired candidate applied
    | failure retry failed other => exact .failed retry failed other

theorem length_keptHeader (source : Bytes) (recovery : Option Recovery) :
    (keptHeader source recovery).length =
      if recovery = some .copierHeaderRemoval then min copierHeaderSize source.length else 0 := by
  match recovery with
  | none | some .headerRepair | some .revisionConversion => rfl
  | some .copierHeaderRemoval => exact List.length_take

/-- A target comes from a candidate. -/
theorem exists_candidate {out : Bytes}
    (success : (adaptiveApply family options source patch).result = .ok out) :
    ∃ recovery x target, Candidate family options source patch recovery x ∧
      (apply x patch).result = .ok target ∧ out = keptHeader source recovery ++ target := by
  have ending : Ending family options source patch _ := ending_adaptiveApply
  rw [success] at ending
  cases ending with
  | direct same => exact ⟨none, source, out, .asIs, same, rfl⟩
  | repaired candidate applied => exact ⟨_, _, _, candidate, applied, rfl⟩

/-- Whatever a family lists and its conversion patches do, a target comes from a candidate: the
patch declares its size and names its checksum, applying the patch to it succeeds, and the output
is that target behind what was taken off the dump. So the output has the declared size, and that
of the copier header if one was taken off. -/
theorem adaptiveApply_sound {out : Bytes}
    (success : (adaptiveApply family options source patch).result = .ok out) :
    ∃ recovery x target p, Candidate family options source patch recovery x ∧
      Patch.parse patch = .ok p ∧ p.sourceSize = x.length ∧ p.footer.source = crc32 x ∧
      (apply x patch).result = .ok target ∧ out = keptHeader source recovery ++ target ∧
      out.length = p.targetSize +
        if recovery = some .copierHeaderRemoval then min copierHeaderSize source.length else 0 := by
  obtain ⟨recovery, x, target, candidate, applied, rfl⟩ := exists_candidate success
  obtain ⟨p, parsed, size, sum, declared⟩ := parse_of_apply applied
  refine ⟨recovery, x, target, p, candidate, parsed, size, sum, applied, rfl, ?_⟩
  rw [List.length_append, length_keptHeader, declared, Nat.add_comm]

/-- Dumps shorter than a header, of which a careless table says that they differ in a program. The
conversion patch makes two bytes of one. -/
def tinyFamily : Family where
  name := "tiny"
  versions := [
    (0xB969BE79,
      { name := "one", revision := .rev0, programChecksum := 0
        header := .replicate headerSize 0x50 }),
    (0xA9601DBD,
      { name := "two", revision := .revA, programChecksum := 1
        header := .replicate headerSize 0x41 })]
  conversions := [⟨.rev0, .revA, some (signature ++ [0x81, 0x82, 0x80, 0x85, 7, 7,
    0x79, 0xBE, 0x69, 0xB9, 0, 0, 0, 0, 0, 0, 0, 0])⟩]

/-- A patch for the second dump of `tinyFamily` that keeps this many bytes, which are two if it is
not damaged. -/
def tinyPatch (kept : Nat) : Bytes :=
  signature ++ [0x82, 0x82, 0x80] ++ (Instruction.sourceRead kept).encode ++
    [0xBD, 0x1D, 0x60, 0xA9, 0, 0, 0, 0, 0, 0, 0, 0]

/-- The second dump is patched on behalf of a byte that is none of the dumps. -/
theorem adaptiveApply_sound_tiny :
    (adaptiveApply tinyFamily {} [9] (tinyPatch 2)).result = .ok [0x41, 0x41] ∧
      ∃ recovery x target p, Candidate tinyFamily {} [9] (tinyPatch 2) recovery x ∧
        Patch.parse (tinyPatch 2) = .ok p ∧ p.sourceSize = x.length ∧ p.footer.source = crc32 x ∧
        (apply x (tinyPatch 2)).result = .ok target ∧
        [0x41, 0x41] = keptHeader [9] recovery ++ target := by
  have success : (adaptiveApply tinyFamily {} [9] (tinyPatch 2)).result = .ok [0x41, 0x41] := by
    decide +kernel
  obtain ⟨recovery, x, target, p, candidate, parsed, size, sum, applied, out, -⟩ :=
    adaptiveApply_sound success
  exact ⟨success, recovery, x, target, p, candidate, parsed, size, sum, applied, out⟩

/-- A direct attempt that does not fail for a wrong input decides. A wrong input that is reported
is that of the direct attempt; any other failure behind a wrong input is one of a retry. Without
repairs all is left to the direct attempt. -/
theorem adaptiveApply_error_of_attempt :
    ((∀ e, (apply source patch).result = .error e → e.isWrongInput = false) →
      (adaptiveApply family options source patch).result = (apply source patch).result) ∧
    (∀ e, (adaptiveApply family options source patch).result = .error e →
      e.isWrongInput = true → (apply source patch).result = .error e) ∧
    (∀ misfit e, (apply source patch).result = .error misfit → misfit.isWrongInput = true →
      (adaptiveApply family options source patch).result = .error e → e.isWrongInput = false →
      ∃ x p, Retry family options source patch x p ∧ (apply x p).result = .error e) ∧
    (adaptiveApply family .strict source patch).result = (apply source patch).result := by
  have ending : Ending family options source patch _ := ending_adaptiveApply
  refine ⟨fun decisive => by rw [adaptiveApply_eq_apply decisive], ?_, ?_, ?_⟩
  · intro e failed wrong
    rw [failed] at ending
    cases ending with
    | direct same => exact same
    | failed retry failure other => rw [other] at wrong; cases wrong
  · intro misfit e direct wrong failed other
    rw [failed] at ending
    cases ending with
    | direct same =>
      rw [direct] at same
      cases same
      rw [other] at wrong
      cases wrong
    | failed retry failure => exact ⟨_, _, retry, failure⟩
  · rcases decisive_or_misfit (apply source patch).result with decisive | ⟨misfit, direct, wrong⟩
    · rw [adaptiveApply_eq_apply decisive]
    · rw [adaptiveApply_of_misfit direct wrong, direct]
      rfl

/-- The second dump itself is patched at once; a dump that nothing helps fails as it did at first;
and a damaged patch is found out behind the conversion. -/
theorem adaptiveApply_error_of_attempt_tiny :
    (adaptiveApply tinyFamily {} [0x41, 0x41] (tinyPatch 2)).result =
        (apply [0x41, 0x41] (tinyPatch 2)).result ∧
      (apply [] (tinyPatch 9)).result = .error (.wrongInputSize 2 0) ∧
      ∃ x p, Retry tinyFamily {} [9] (tinyPatch 9) x p ∧
        (apply x p).result = .error (.outOfBounds .source 0 9) := by
  have fits : (apply [0x41, 0x41] (tinyPatch 2)).result = .ok [0x41, 0x41] := by decide +kernel
  have unrelated : (adaptiveApply tinyFamily {} [] (tinyPatch 9)).result =
      .error (.wrongInputSize 2 0) := by decide +kernel
  have misfit : (apply [9] (tinyPatch 9)).result = .error (.wrongInputSize 2 1) := by
    decide +kernel
  have damaged : (adaptiveApply tinyFamily {} [9] (tinyPatch 9)).result =
      .error (.outOfBounds .source 0 9) := by decide +kernel
  obtain ⟨direct, -, -, -⟩ :=
    @adaptiveApply_error_of_attempt tinyFamily {} [0x41, 0x41] (tinyPatch 2)
  obtain ⟨-, wrong, -, -⟩ := @adaptiveApply_error_of_attempt tinyFamily {} [] (tinyPatch 9)
  obtain ⟨-, -, retry, -⟩ := @adaptiveApply_error_of_attempt tinyFamily {} [9] (tinyPatch 9)
  exact ⟨direct (by rw [fits]; exact nofun), wrong _ unrelated rfl,
    retry _ _ misfit rfl damaged rfl⟩

end Adaptive

end BeatPatch
