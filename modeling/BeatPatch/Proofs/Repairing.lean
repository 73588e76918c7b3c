import BeatPatch.Adaptive
import BeatPatch.Proofs.Gate

/-!
# Applying with repairs

Adaptive application is a direct attempt and, if the patch rejects the dump, whatever the repairs
come to (`applyRepairing`). The repairs are two, of which the second is tried if the first is of no
help (`orThen`). What follows from that alone is stated here for any repairs: when they count, and
that their order does not matter if one of them is of no help (`orThen_comm`).
-/

namespace BeatPatch

variable {family : Family} {options : RecoveryOptions} {source patch target : Bytes}

/-! ## Two repairs in order -/

/-- A repair that is of no help if it is not allowed. -/
def ifAllowed (allowed : Bool) (repair : Logged (Option Bytes)) : Logged (Option Bytes) :=
  if allowed then repair else pure none

/-- Two repairs, the second of which is tried if the first is of no help. -/
def orThen (first second : Logged (Option Bytes)) : Logged (Option Bytes) := do
  match ← first with
  | some target => return some target
  | none => second

section Order

variable {first second repair : Logged (Option Bytes)}

theorem orThen_result :
    (orThen first second).result = first.result >>= fun repaired => match repaired with
      | some target => .ok (some target)
      | none => second.result := by
  rw [orThen, Logged.bind_result]
  congr 1
  funext repaired
  cases repaired <;> rfl

theorem orThen_of_unhelpful_left (unhelpful : first.result = .ok none) :
    (orThen first second).result = second.result := by
  rw [orThen_result, unhelpful]
  rfl

theorem orThen_of_unhelpful_right (unhelpful : second.result = .ok none) :
    (orThen first second).result = first.result := by
  rw [orThen_result, unhelpful]
  cases first.result with
  | error e => rfl
  | ok repaired => cases repaired <;> rfl

/-- The order of two repairs of which one is of no help does not matter. -/
theorem orThen_comm (unhelpful : first.result = .ok none ∨ second.result = .ok none) :
    (orThen first second).result = (orThen second first).result := by
  rcases unhelpful with left | right
  · rw [orThen_of_unhelpful_left left, orThen_of_unhelpful_right left]
  · rw [orThen_of_unhelpful_right right, orThen_of_unhelpful_left right]

theorem orThen_eq_some_iff :
    (orThen first second).result = .ok (some target) ↔ first.result = .ok (some target) ∨
      first.result = .ok none ∧ second.result = .ok (some target) := by
  rw [orThen_result]
  cases first.result with
  | error e => simp [bind, Except.bind]
  | ok repaired => cases repaired <;> simp [bind, Except.bind]

theorem log_orThen_of_unhelpful (unhelpful : first.result = .ok none) :
    (orThen first second).log = first.log ++ second.log := by
  rw [orThen, Logged.bind_of_ok unhelpful]

/-- What is only tried if the first repair is of no help leaves no record if it is. -/
theorem log_orThen_of_decisive (decisive : first.result ≠ .ok none) :
    (orThen first second).log = first.log := by
  cases done : first.result with
  | error e => rw [orThen, Logged.bind_of_error done]
  | ok repaired =>
    cases repaired with
    | none => exact (decisive done).elim
    | some target =>
      rw [orThen, Logged.bind_of_ok done]
      exact List.append_nil _

theorem ifAllowed_eq_some_iff {allowed : Bool} :
    (ifAllowed allowed repair).result = .ok (some target) ↔
      allowed = true ∧ repair.result = .ok (some target) := by
  cases allowed <;> simp [ifAllowed]

theorem ifAllowed_of_unhelpful (allowed : Bool) (unhelpful : repair.result = .ok none) :
    (ifAllowed allowed repair).result = .ok none := by
  cases allowed with
  | true => exact unhelpful
  | false => rfl

end Order

/-- Adaptive application looks at the table before it takes off a copier header. -/
theorem tryRepairs_eq :
    tryRepairs family options source patch =
      orThen (ifAllowed options.knownDumps (repairKnownDump family source patch))
        (ifAllowed options.copierHeader (removeCopierHeader source patch)) := by
  unfold tryRepairs
  cases options.knownDumps <;> rfl

/-! ## A direct attempt and repairs -/

/-- Applies a patch to a dump, and if the patch rejects it goes by what the repairs come to. -/
def applyRepairing (repairs : Logged (Option Bytes)) (source patch : Bytes) : Logged Bytes :=
  let direct := apply source patch
  match direct.result with
  | .ok _ => direct
  | .error misfit =>
    if !misfit.isWrongInput then direct
    else do
      Logged.note (.directFailure misfit)
      match ← repairs with
      | some target => return target
      | none => Logged.fail misfit

/-- A result is decisive, or it is the failure of an attempt on the wrong input. -/
theorem decisive_or_misfit (result : Except PatchError Bytes) :
    (∀ e, result = .error e → e.isWrongInput = false) ∨
      ∃ misfit, result = .error misfit ∧ misfit.isWrongInput = true := by
  cases result with
  | ok target => exact .inl nofun
  | error e =>
    cases wrong : e.isWrongInput with
    | true => exact .inr ⟨e, rfl, wrong⟩
    | false => exact .inl (by rintro _ ⟨⟩; exact wrong)

section Repairs

variable {repairs others : Logged (Option Bytes)}

/-- Only a wrong input is worked around. -/
theorem applyRepairing_of_decisive
    (decisive : ∀ e, (apply source patch).result = .error e → e.isWrongInput = false) :
    applyRepairing repairs source patch = apply source patch := by
  unfold applyRepairing
  dsimp only
  split
  · rfl
  next e failed => rw [decisive e failed]; rfl

/-- The error of a direct attempt stands if the repairs are of no help. -/
theorem applyRepairing_of_misfit {misfit : PatchError}
    (failed : (apply source patch).result = .error misfit) (wrong : misfit.isWrongInput = true) :
    (applyRepairing repairs source patch).result =
      repairs.result >>= fun repaired => match repaired with
        | some target => .ok target
        | none => .error misfit := by
  simp only [applyRepairing, failed, wrong, Bool.not_true, Bool.false_eq_true, if_false,
    Logged.bind_result, Logged.note_result]
  show repairs.result >>= _ = _
  congr 1
  funext repaired
  cases repaired <;> rfl

/-- What is logged of the repairs follows a record of the direct attempt. -/
theorem log_applyRepairing_of_misfit {misfit : PatchError}
    (failed : (apply source patch).result = .error misfit) (wrong : misfit.isWrongInput = true) :
    (applyRepairing repairs source patch).log = .directFailure misfit :: repairs.log := by
  simp only [applyRepairing, failed, wrong, Bool.not_true, Bool.false_eq_true, if_false]
  rw [Logged.bind_of_ok (Logged.note_result _)]
  refine congrArg (LogRecord.directFailure misfit :: ·) ?_
  cases tried : repairs.result with
  | error e =>
    rw [Logged.bind_of_error tried]
    rfl
  | ok repaired =>
    rw [Logged.bind_of_ok tried]
    cases repaired <;> exact List.append_nil _

/-- Repairs of the same result may take each other's place. -/
theorem applyRepairing_congr
    (same : Patch.Rejects patch source → repairs.result = others.result) :
    (applyRepairing repairs source patch).result = (applyRepairing others source patch).result := by
  rcases decisive_or_misfit (apply source patch).result with decisive | ⟨misfit, failed, wrong⟩
  · rw [applyRepairing_of_decisive decisive, applyRepairing_of_decisive decisive]
  · rw [applyRepairing_of_misfit failed wrong, applyRepairing_of_misfit failed wrong,
      same ⟨misfit, failed, wrong⟩]

/-- A target is that of the direct attempt, or it comes from the repairs of a rejected dump. -/
theorem applyRepairing_eq_ok_iff :
    (applyRepairing repairs source patch).result = .ok target ↔
      (apply source patch).result = .ok target ∨
        Patch.Rejects patch source ∧ repairs.result = .ok (some target) := by
  rcases decisive_or_misfit (apply source patch).result with decisive | ⟨misfit, failed, wrong⟩
  · rw [applyRepairing_of_decisive decisive]
    constructor
    · exact .inl
    · rintro (direct | ⟨⟨e, failed, wrong⟩, -⟩)
      · exact direct
      · rw [decisive e failed] at wrong
        cases wrong
  · rw [applyRepairing_of_misfit failed wrong, failed]
    have rejects : Patch.Rejects patch source := ⟨misfit, failed, wrong⟩
    cases repairs.result with
    | error e => simp [bind, Except.bind]
    | ok repaired => cases repaired <;> simp [bind, Except.bind, rejects]

end Repairs

theorem adaptiveApply_eq :
    adaptiveApply family options source patch =
      applyRepairing (tryRepairs family options source patch) source patch :=
  rfl

theorem adaptiveApply_eq_apply
    (decisive : ∀ e, (apply source patch).result = .error e → e.isWrongInput = false) :
    adaptiveApply family options source patch = apply source patch :=
  applyRepairing_of_decisive decisive

theorem adaptiveApply_of_misfit {misfit : PatchError}
    (failed : (apply source patch).result = .error misfit) (wrong : misfit.isWrongInput = true) :
    (adaptiveApply family options source patch).result =
      (tryRepairs family options source patch).result >>= fun repaired => match repaired with
        | some target => .ok target
        | none => .error misfit :=
  applyRepairing_of_misfit failed wrong

theorem log_adaptiveApply_of_misfit {misfit : PatchError}
    (failed : (apply source patch).result = .error misfit) (wrong : misfit.isWrongInput = true) :
    (adaptiveApply family options source patch).log =
      .directFailure misfit :: (tryRepairs family options source patch).log :=
  log_applyRepairing_of_misfit failed wrong

end BeatPatch
