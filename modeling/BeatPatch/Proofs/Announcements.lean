import BeatPatch.Proofs.KnownDumps
import BeatPatch.Proofs.Records

/-!
# Announcements

Of what an adaptive application notes, the records at the level of information announce attempts
that succeeded. A repair `Announces` the recovery with which it helps, and nothing else behind what
it announces early, before it is known whether it helps. Both repairs do so, and so does one behind
the other. Only a conversion is announced early, since its patch is applied by the same kind of
attempt as the patch itself. So the recovery behind a target is announced exactly once, and nothing
without one, unless a dump was converted: that is announced as if it had helped already
(`announcements_adaptiveApply`).
-/

namespace BeatPatch

/-- The records of a log that are at the level of information. -/
def announcements (log : List LogRecord) : List LogRecord :=
  log.filter fun record => record.level = .info

theorem announcements_append (log more : List LogRecord) :
    announcements (log ++ more) = announcements log ++ announcements more :=
  List.filter_append log more

namespace Logged

variable {α β : Type}

/-- Nothing is announced on the way. -/
def Silent (x : Logged α) : Prop := announcements x.log = []

theorem silent_note {record : LogRecord} (other : record.level ≠ .info) :
    (note record).Silent :=
  List.filter_cons_of_neg (by simpa using other)

theorem Notes.silent {x : Logged α} (notes : x.Notes LogRecord.Minor) : x.Silent := by
  refine List.filter_eq_nil_iff.mpr fun record mem announced => ?_
  have minor : LogLevel.info.rank < record.level.rank := notes record mem
  rw [of_decide_eq_true announced] at minor
  exact Nat.lt_irrefl _ minor

end Logged

open Logged

/-- An attempt that is not made after a repair announces nothing. -/
theorem silent_apply (source patch : Bytes) : (apply source patch).Silent :=
  (notes_apply source patch).silent

/-! ## Repairs -/

section Repairs

variable {Helps Others : Recovery → Bytes → Prop} {early : List Recovery}
variable {repair second : Logged (Option Bytes)}

/-- A repair comes to the target with which a recovery helps. Behind some early recoveries it
announces that one, and nothing more if there is none. -/
structure Announces (early : List Recovery) (Helps : Recovery → Bytes → Prop)
    (repair : Logged (Option Bytes)) : Prop where
  result : ∀ out, repair.result = .ok (some out) ↔ ∃ recovery, Helps recovery out
  helpful : ∀ {recovery out}, Helps recovery out →
    announcements repair.log = (early ++ [recovery]).map .recovered
  unhelpful : (∀ recovery out, ¬ Helps recovery out) →
    announcements repair.log = early.map .recovered

theorem Announces.congr (announces : Announces early Helps repair)
    (same : ∀ recovery out, Others recovery out ↔ Helps recovery out) :
    Announces early Others repair := by
  have same : Others = Helps := by
    funext recovery out
    exact propext (same recovery out)
  rwa [same]

theorem announces_nothing (result : ∀ out, repair.result ≠ .ok (some out))
    (silent : repair.Silent) (unhelpful : ∀ recovery out, ¬ Helps recovery out) :
    Announces [] Helps repair where
  result out := by simpa [unhelpful] using result out
  helpful helps := (unhelpful _ _ helps).elim
  unhelpful _ := silent

/-- What is announced before a repair is announced early. -/
theorem Announces.behind {α : Type} {x : Logged α} {a : α} {f : α → Logged (Option Bytes)}
    (announces : Announces early Helps (f a)) (first : List Recovery) (done : x.result = .ok a)
    (told : announcements x.log = first.map .recovered) :
    Announces (first ++ early) Helps (x >>= f) := by
  rw [bind_of_ok done]
  constructor
  · exact announces.result
  · intro recovery out helps
    rw [announcements_append, told, announces.helpful helps, ← List.map_append, List.append_assoc]
  · intro unhelpful
    rw [announcements_append, told, announces.unhelpful unhelpful, ← List.map_append]

theorem Announces.noted (announces : Announces early Helps repair) {record : LogRecord}
    (other : record.level ≠ .info) : Announces early Helps (note record >>= fun _ => repair) :=
  announces.behind [] rfl (silent_note other)

/-- A target may be changed behind the repair. -/
theorem Announces.map (announces : Announces early Helps repair) (f : Bytes → Bytes) :
    Announces early (fun recovery out => ∃ target, Helps recovery target ∧ out = f target)
      (repair >>= fun target => pure (target.map f)) := by
  have told : announcements (repair >>= fun target => pure (target.map f)).log =
      announcements repair.log := by
    cases done : repair.result with
    | ok target =>
      rw [bind_of_ok done, announcements_append]
      exact List.append_nil _
    | error e => rw [bind_of_error done]
  have result (out : Bytes) : (repair >>= fun target => pure (target.map f)).result =
      .ok (some out) ↔ ∃ target, repair.result = .ok (some target) ∧ out = f target := by
    rw [bind_result]
    cases repair.result with
    | error e => simp [bind, Except.bind]
    | ok repaired => cases repaired <;> simp [bind, Except.bind, eq_comm]
  constructor
  · intro out
    simp only [result, announces.result]
    constructor
    · rintro ⟨target, ⟨recovery, helps⟩, rfl⟩
      exact ⟨recovery, target, helps, rfl⟩
    · rintro ⟨recovery, target, helps, rfl⟩
      exact ⟨target, ⟨recovery, helps⟩, rfl⟩
  · rintro recovery out ⟨target, helps, -⟩
    rw [told]
    exact announces.helpful helps
  · intro unhelpful
    rw [told]
    exact announces.unhelpful fun recovery target helps => unhelpful _ _ ⟨target, helps, rfl⟩

theorem Announces.ifAllowed (announces : Announces early Helps repair) (allowed : Bool) :
    Announces (if allowed then early else []) (fun recovery out => allowed = true ∧
      Helps recovery out) (ifAllowed allowed repair) := by
  cases allowed with
  | true => exact announces.congr fun recovery out => by simp
  | false => exact announces_nothing (fun _ => nofun) rfl fun _ _ => by simp

/-! ### Two repairs in order -/

theorem Announces.not_helps (announces : Announces early Helps repair)
    (unhelpful : repair.result = .ok none) (recovery : Recovery) (out : Bytes) :
    ¬ Helps recovery out := by
  intro helps
  have helpful := (announces.result out).mpr ⟨recovery, helps⟩
  rw [unhelpful] at helpful
  cases helpful

/-- A repair that is only tried if another one is of no help announces its recovery behind what that
one has announced early. -/
theorem Announces.orThen (announces : Announces early Helps repair)
    (otherwise : Announces [] Others second) :
    Announces early (fun recovery out => Helps recovery out ∨
      repair.result = .ok none ∧ Others recovery out) (orThen repair second) := by
  constructor
  · intro out
    rw [orThen_eq_some_iff, announces.result, otherwise.result, exists_or, exists_and_left]
  · rintro recovery out (helps | ⟨unhelpful, helps⟩)
    · rw [log_orThen_of_decisive fun unhelpful => announces.not_helps unhelpful _ _ helps]
      exact announces.helpful helps
    · rw [log_orThen_of_unhelpful unhelpful, announcements_append,
        announces.unhelpful (announces.not_helps unhelpful), otherwise.helpful helps,
        ← List.map_append, List.nil_append]
  · intro nothing
    have told := announces.unhelpful fun recovery out helps => nothing recovery out (.inl helps)
    by_cases unhelpful : repair.result = .ok none
    · rw [log_orThen_of_unhelpful unhelpful, announcements_append, told,
        otherwise.unhelpful fun recovery out helps =>
          nothing recovery out (.inr ⟨unhelpful, helps⟩), ← List.map_append, List.append_nil]
    · rw [log_orThen_of_decisive unhelpful, told]

end Repairs

/-! ## Attempts -/

section Attempt

variable {recovery : Recovery} {application : Logged Bytes} {target : Bytes} {e : PatchError}

theorem attempt_eq_some_iff :
    (attempt recovery application).result = .ok (some target) ↔ application.result = .ok target :=
  ⟨result_of_attempt, attempt_of_ok⟩

theorem announcements_attempt_of_ok (silent : application.Silent)
    (applied : application.result = .ok target) :
    announcements (attempt recovery application).log = [.recovered recovery] := by
  simp only [attempt, applied]
  rw [announcements_append, silent]
  rfl

theorem silent_attempt_of_error (silent : application.Silent)
    (failed : application.result = .error e) : (attempt recovery application).Silent := by
  simp only [attempt, failed]
  split
  · rw [Silent, announcements_append, silent]
    rfl
  · exact silent

/-- An attempt announces its recovery if it succeeds. -/
theorem announces_attempt (silent : application.Silent) (recovery : Recovery) :
    Announces [] (fun r out => r = recovery ∧ application.result = .ok out)
      (attempt recovery application) where
  result out := by simp [attempt_eq_some_iff]
  helpful := by
    rintro _ out ⟨rfl, applied⟩
    exact announcements_attempt_of_ok silent applied
  unhelpful nothing := by
    cases applied : application.result with
    | ok out => exact (nothing recovery out ⟨rfl, applied⟩).elim
    | error e => exact silent_attempt_of_error silent applied

/-- An attempt that fails ends a repair without help. -/
theorem announces_nothing_of_error {Helps : Recovery → Bytes → Prop}
    {next : Bytes → Logged (Option Bytes)} (silent : application.Silent)
    (failed : application.result = .error e) (nothing : ∀ recovery out, ¬ Helps recovery out) :
    Announces [] Helps (do
      match ← attempt recovery application with
      | none => return none
      | some converted => next converted) := by
  have told : (attempt recovery application).Silent := silent_attempt_of_error silent failed
  cases wrong : e.isWrongInput with
  | true =>
    rw [bind_of_ok (attempt_of_misfit failed wrong)]
    refine announces_nothing (fun _ => nofun) ?_ nothing
    rw [Silent, announcements_append, told]
    rfl
  | false =>
    rw [bind_of_error (attempt_of_error failed wrong)]
    exact announces_nothing (fun _ => nofun) told nothing

end Attempt

/-! ## The repairs of a dump -/

section Dumps

variable {family : Family} {options : RecoveryOptions} {source patch : Bytes}

/-- The recovery makes a dump that the patch can be applied to, and this is the target. -/
def Gives (family : Family) (options : RecoveryOptions) (source patch : Bytes)
    (recovery : Recovery) (out : Bytes) : Prop :=
  ∃ x target, Candidate family options source patch (some recovery) x ∧
    (apply x patch).result = .ok target ∧ out = keptHeader source recovery ++ target

/-- What the table suggests makes this dump of the source. -/
inductive Repair.Prepares (source : Bytes) : Repair → Recovery → Bytes → Prop where
  | reheader {required : Version} :
      Prepares source (.reheader required) .headerRepair (required.reheader source)
  | convert {current canonical required : Version} {conversion output : Bytes}
      (done : (apply (canonical.reheader source) conversion).result = .ok output) :
      Prepares source (.convert current canonical required conversion) .revisionConversion
        (required.reheader output)

theorem Repair.Prepares.known {repair : Repair} {recovery : Recovery} {x : Bytes}
    (prepares : repair.Prepares source recovery x) : recovery ≠ .copierHeaderRemoval := by
  cases prepares <;> exact nofun

/-- What is announced before a repair is tried: a conversion that was carried out. -/
def Repair.early (source : Bytes) : Repair → List Recovery
  | .convert _ canonical _ conversion =>
    match (apply (canonical.reheader source) conversion).result with
    | .ok _ => [.revisionConversion]
    | .error _ => []
  | _ => []

theorem announces_repairKnownDump :
    Announces ((Repair.find family source patch).early source)
      (fun recovery out => ∃ x, (Repair.find family source patch).Prepares source recovery x ∧
        (apply x patch).result = .ok out)
      (repairKnownDump family source patch) := by
  unfold repairKnownDump
  cases Repair.find family source patch with
  | none | unavailable =>
    exact announces_nothing (fun _ => nofun) rfl fun _ _ ⟨_, prepares, _⟩ => nomatch prepares
  | reheader required =>
    refine Announces.noted ?_ (by simp [LogRecord.level])
    refine (announces_attempt (silent_apply ..) .headerRepair).congr fun recovery out => ?_
    constructor
    · rintro ⟨_, ⟨⟩, applied⟩
      exact ⟨rfl, applied⟩
    · rintro ⟨rfl, applied⟩
      exact ⟨_, .reheader, applied⟩
  | convert current canonical required conversion =>
    refine Announces.noted ?_ (by simp [LogRecord.level])
    -- the conversion is an attempt of its own, so what it announces comes before the retry
    cases done : (apply (canonical.reheader source) conversion).result with
    | ok output =>
      simp only [Repair.early, done]
      refine Announces.behind ?_ [.revisionConversion] (attempt_of_ok done)
        (announcements_attempt_of_ok (silent_apply ..) done)
      refine (announces_attempt (silent_apply ..) .revisionConversion).congr
        fun recovery out => ?_
      constructor
      · rintro ⟨_, prepares, applied⟩
        cases prepares with
        | convert converted =>
          cases done.symm.trans converted
          exact ⟨rfl, applied⟩
      · rintro ⟨rfl, applied⟩
        exact ⟨_, .convert done, applied⟩
    | error e =>
      simp only [Repair.early, done]
      refine announces_nothing_of_error (silent_apply ..) done fun recovery out => ?_
      rintro ⟨_, prepares, -⟩
      cases prepares with
      | convert converted => cases done.symm.trans converted

/-- A candidate with its copier header is what the table suggests. -/
theorem candidate_iff_prepares {recovery : Recovery} {x : Bytes}
    (known : recovery ≠ .copierHeaderRemoval) :
    Candidate family options source patch (some recovery) x ↔ options.knownDumps = true ∧
      (Repair.find family source patch).Prepares source recovery x := by
  constructor
  · intro candidate
    cases candidate with
    | reheadered allowed requires program =>
      rw [Repair.find_eq_reheader_iff.mpr ⟨requires, program⟩]
      exact ⟨allowed, .reheader⟩
    | converted allowed requires converts done =>
      obtain ⟨current, found⟩ := Repair.find_eq_convert_iff.mpr ⟨requires, converts⟩
      rw [found]
      exact ⟨allowed, .convert done⟩
    | stripped allowed => exact (known rfl).elim
  · rintro ⟨allowed, prepares⟩
    cases found : Repair.find family source patch with
    | none | unavailable current required => rw [found] at prepares; cases prepares
    | reheader required =>
      obtain ⟨requires, program⟩ := Repair.find_eq_reheader_iff.mp found
      rw [found] at prepares
      cases prepares
      exact .reheadered allowed requires program
    | convert current canonical required conversion =>
      obtain ⟨requires, converts⟩ := Repair.find_eq_convert_iff.mp ⟨current, found⟩
      rw [found] at prepares
      cases prepares with
      | convert done => exact .converted allowed requires converts done

theorem Repair.early_of_prepares {repair : Repair} {x : Bytes}
    (prepares : repair.Prepares source .revisionConversion x) :
    repair.early source = [.revisionConversion] := by
  cases prepares with
  | convert done => simp only [early, done]

theorem Repair.early_of_not_prepares {repair : Repair}
    (nothing : ∀ x, ¬ repair.Prepares source .revisionConversion x) :
    repair.early source = [] := by
  cases repair with
  | none | reheader | unavailable => rfl
  | convert current canonical required conversion =>
    cases done : (apply (canonical.reheader source) conversion).result with
    | ok output => exact (nothing _ (.convert done)).elim
    | error e => simp only [early, done]

/-- The table gives a target if another header or another revision of the program does. -/
theorem gives_known_iff {recovery : Recovery} {out : Bytes} :
    recovery ≠ .copierHeaderRemoval ∧ Gives family options source patch recovery out ↔
      options.knownDumps = true ∧ ∃ x,
        (Repair.find family source patch).Prepares source recovery x ∧
          (apply x patch).result = .ok out := by
  constructor
  · rintro ⟨known, x, target, candidate, applied, rfl⟩
    obtain ⟨allowed, prepares⟩ := (candidate_iff_prepares known).mp candidate
    refine ⟨allowed, x, prepares, ?_⟩
    cases recovery with
    | headerRepair | revisionConversion => exact applied
    | copierHeaderRemoval => exact (known rfl).elim
  · rintro ⟨allowed, x, prepares, applied⟩
    have known : recovery ≠ .copierHeaderRemoval := prepares.known
    refine ⟨known, x, out, (candidate_iff_prepares known).mpr ⟨allowed, prepares⟩, applied, ?_⟩
    cases recovery with
    | headerRepair | revisionConversion => rfl
    | copierHeaderRemoval => exact (known rfl).elim

theorem gives_stripped_iff {recovery : Recovery} {out : Bytes} :
    recovery = .copierHeaderRemoval ∧ Gives family options source patch recovery out ↔
      options.copierHeader = true ∧ ∃ target, (recovery = .copierHeaderRemoval ∧
        (apply (source.drop copierHeaderSize) patch).result = .ok target) ∧
          out = source.take copierHeaderSize ++ target := by
  constructor
  · rintro ⟨rfl, x, target, candidate, applied, rfl⟩
    cases candidate with
    | stripped allowed => exact ⟨allowed, target, ⟨rfl, applied⟩, rfl⟩
  · rintro ⟨allowed, target, ⟨rfl, applied⟩, rfl⟩
    exact ⟨rfl, _, target, .stripped allowed, applied, rfl⟩

/-- What is announced before it is known whether a repair helps. -/
def earlyRecoveries (family : Family) (options : RecoveryOptions) (source patch : Bytes) :
    List Recovery :=
  if options.knownDumps then (Repair.find family source patch).early source else []

theorem announces_knownDumps :
    Announces (earlyRecoveries family options source patch)
      (fun recovery out =>
        recovery ≠ .copierHeaderRemoval ∧ Gives family options source patch recovery out)
      (ifAllowed options.knownDumps (repairKnownDump family source patch)) :=
  (announces_repairKnownDump.ifAllowed _).congr fun _ _ => gives_known_iff

theorem announces_copierHeader :
    Announces [] (fun recovery out =>
        recovery = .copierHeaderRemoval ∧ Gives family options source patch recovery out)
      (ifAllowed options.copierHeader (removeCopierHeader source patch)) := by
  have attempted := announces_attempt (silent_apply (source.drop copierHeaderSize) patch)
    .copierHeaderRemoval
  have stripped := (attempted.map (source.take copierHeaderSize ++ ·)).ifAllowed
    options.copierHeader
  rw [ite_self] at stripped
  exact stripped.congr fun _ _ => gives_stripped_iff

/-- What the table gives comes first. -/
theorem announces_tryRepairs :
    Announces (earlyRecoveries family options source patch)
      (fun recovery out =>
        (recovery ≠ .copierHeaderRemoval ∧ Gives family options source patch recovery out) ∨
        (ifAllowed options.knownDumps (repairKnownDump family source patch)).result = .ok none ∧
          recovery = .copierHeaderRemoval ∧ Gives family options source patch recovery out)
      (tryRepairs family options source patch) := by
  rw [tryRepairs_eq]
  exact announces_knownDumps.orThen announces_copierHeader

end Dumps

/-! ## Adaptive application -/

section Adaptive

variable {family : Family} {options : RecoveryOptions} {source patch : Bytes}

theorem announcements_adaptiveApply_of_decisive
    (decisive : ∀ e, (apply source patch).result = .error e → e.isWrongInput = false) :
    announcements (adaptiveApply family options source patch).log = [] := by
  rw [adaptiveApply_eq_apply decisive]
  exact silent_apply source patch

theorem announcements_adaptiveApply_of_rejects (rejects : Patch.Rejects patch source) :
    announcements (adaptiveApply family options source patch).log =
      announcements (tryRepairs family options source patch).log := by
  obtain ⟨misfit, failed, wrong⟩ := rejects
  rw [log_adaptiveApply_of_misfit failed wrong]
  exact List.filter_cons_of_neg (by simp [LogRecord.level])

/-- The patch rejects the dump, and the recovery gives the target that is returned: of the
candidates, one of the table of known dumps comes before the dump without a copier header. -/
structure Returns (family : Family) (options : RecoveryOptions) (source patch : Bytes)
    (recovery : Recovery) (out : Bytes) : Prop where
  result : (adaptiveApply family options source patch).result = .ok out
  rejects : Patch.Rejects patch source
  gives : Gives family options source patch recovery out
  first : recovery = .copierHeaderRemoval →
    ∀ known target, Gives family options source patch known target → known = recovery

/-- The patch rejects the dump, and on the way to a candidate the dump is converted. -/
def Converted (family : Family) (options : RecoveryOptions) (source patch : Bytes) : Prop :=
  Patch.Rejects patch source ∧
    ∃ x, Candidate family options source patch (some .revisionConversion) x

/-- A target that is returned behind a rejected dump comes from the repairs, in their order. -/
theorem returns_iff {recovery : Recovery} {out : Bytes} :
    Returns family options source patch recovery out ↔ Patch.Rejects patch source ∧
      ((recovery ≠ .copierHeaderRemoval ∧ Gives family options source patch recovery out) ∨
        (ifAllowed options.knownDumps (repairKnownDump family source patch)).result = .ok none ∧
          recovery = .copierHeaderRemoval ∧ Gives family options source patch recovery out) := by
  constructor
  · rintro ⟨result, rejects, gives, first⟩
    refine ⟨rejects, ?_⟩
    by_cases known : recovery = .copierHeaderRemoval
    · refine .inr ⟨?_, known, gives⟩
      -- a failure of the table would be the result, and a target of it would come first
      obtain ⟨misfit, failed, wrong⟩ := rejects
      rw [adaptiveApply_of_misfit failed wrong, tryRepairs_eq, orThen_result] at result
      cases table : (ifAllowed options.knownDumps (repairKnownDump family source patch)).result with
      | error e => rw [table] at result; cases result
      | ok repaired =>
        cases repaired with
        | none => rfl
        | some target =>
          obtain ⟨earlier, other, gives⟩ := (announces_knownDumps.result target).mp table
          exact (other ((first known _ _ gives).trans known)).elim
    · exact .inl ⟨known, gives⟩
  · rintro ⟨rejects, gives⟩
    have repaired := (announces_tryRepairs.result out).mpr ⟨recovery, gives⟩
    have result := applyRepairing_eq_ok_iff.mpr (.inr ⟨rejects, repaired⟩)
    rcases gives with ⟨known, gives⟩ | ⟨unhelpful, rfl, gives⟩
    · exact ⟨result, rejects, gives, fun other => (known other).elim⟩
    · refine ⟨result, rejects, gives, fun _ known target given => ?_⟩
      by_contra other
      exact announces_knownDumps.not_helps unhelpful known target ⟨other, given⟩

theorem earlyRecoveries_of_converted (converted : Converted family options source patch) :
    earlyRecoveries family options source patch = [.revisionConversion] := by
  obtain ⟨-, x, candidate⟩ := converted
  obtain ⟨allowed, prepares⟩ := (candidate_iff_prepares (by decide)).mp candidate
  rw [earlyRecoveries, if_pos allowed, Repair.early_of_prepares prepares]

theorem earlyRecoveries_of_not_converted (rejects : Patch.Rejects patch source)
    (direct : ¬ Converted family options source patch) :
    earlyRecoveries family options source patch = [] := by
  unfold earlyRecoveries
  split
  next allowed =>
    exact Repair.early_of_not_prepares fun x prepares =>
      direct ⟨rejects, x, (candidate_iff_prepares (by decide)).mpr ⟨allowed, prepares⟩⟩
  next => rfl

theorem Returns.announcements {recovery : Recovery} {out : Bytes}
    (returns : Returns family options source patch recovery out) :
    announcements (adaptiveApply family options source patch).log =
      (earlyRecoveries family options source patch ++ [recovery]).map .recovered := by
  rw [announcements_adaptiveApply_of_rejects returns.rejects]
  exact announces_tryRepairs.helpful (returns_iff.mp returns).2

theorem announcements_of_not_returns (rejects : Patch.Rejects patch source)
    (unhelpful : ∀ recovery out, ¬ Returns family options source patch recovery out) :
    announcements (adaptiveApply family options source patch).log =
      (earlyRecoveries family options source patch).map .recovered := by
  rw [announcements_adaptiveApply_of_rejects rejects]
  exact announces_tryRepairs.unhelpful fun recovery out gives =>
    unhelpful recovery out (returns_iff.mpr ⟨rejects, gives⟩)

/-- Only one recovery gives the target that is returned. -/
theorem Returns.unique {recovery other : Recovery} {out out' : Bytes}
    (returns : Returns family options source patch recovery out)
    (returns' : Returns family options source patch other out') : recovery = other := by
  have same := returns.announcements.symm.trans returns'.announcements
  simpa using same

/-- Adaptive application returns a target behind a failure of the direct attempt if a recovery
gives it, and this recovery is the only one that is announced, once. Nothing is announced if there
is none. A dump that has to be converted is the exception: the conversion is announced before, once
it is carried out, whatever comes of it. -/
theorem announcements_adaptiveApply :
    (∀ out, ((adaptiveApply family options source patch).result = .ok out ∧
        ∀ target, (apply source patch).result ≠ .ok target) ↔
      ∃ recovery, Returns family options source patch recovery out) ∧
    ∃ returned : Option Recovery,
      (∀ recovery, returned = some recovery ↔
        ∃ out, Returns family options source patch recovery out) ∧
      (¬ Converted family options source patch →
        announcements (adaptiveApply family options source patch).log =
          returned.toList.map .recovered) ∧
      (Converted family options source patch →
        announcements (adaptiveApply family options source patch).log =
          .recovered .revisionConversion :: returned.toList.map .recovered) := by
  constructor
  · intro out
    constructor
    · rintro ⟨result, indirect⟩
      rcases applyRepairing_eq_ok_iff.mp result with direct | ⟨rejects, repaired⟩
      · exact (indirect out direct).elim
      · obtain ⟨recovery, gives⟩ := (announces_tryRepairs.result out).mp repaired
        exact ⟨recovery, returns_iff.mpr ⟨rejects, gives⟩⟩
    · rintro ⟨recovery, returns⟩
      obtain ⟨misfit, failed, -⟩ := returns.rejects
      exact ⟨returns.result, fun target => by rw [failed]; exact nofun⟩
  by_cases helped : ∃ recovery out, Returns family options source patch recovery out
  · obtain ⟨recovery, out, returns⟩ := helped
    refine ⟨some recovery, fun other => ⟨?_, ?_⟩, fun direct => ?_, fun converted => ?_⟩
    · rintro ⟨⟩
      exact ⟨out, returns⟩
    · rintro ⟨out', returns'⟩
      exact congrArg some (returns.unique returns')
    · rw [returns.announcements, earlyRecoveries_of_not_converted returns.rejects direct]
      rfl
    · rw [returns.announcements, earlyRecoveries_of_converted converted]
      rfl
  · have unhelpful (recovery : Recovery) (out : Bytes) :
        ¬ Returns family options source patch recovery out :=
      fun returns => helped ⟨recovery, out, returns⟩
    refine ⟨none, fun recovery => ⟨nofun, ?_⟩, fun direct => ?_, fun converted => ?_⟩
    · rintro ⟨out, returns⟩
      exact (unhelpful recovery out returns).elim
    · rcases decisive_or_misfit (apply source patch).result with decisive | rejects
      · exact announcements_adaptiveApply_of_decisive decisive
      · rw [announcements_of_not_returns rejects unhelpful,
          earlyRecoveries_of_not_converted rejects direct]
        rfl
    · rw [announcements_of_not_returns converted.1 unhelpful,
        earlyRecoveries_of_converted converted]
      rfl

/-- A short dump is a header that is filled with `P` and one byte. -/
def shortFirst : Version where
  name := "first"
  revision := .rev0
  programChecksum := 0xA505DF1B
  header := .replicate headerSize 0x50

/-- Its other revision is a header that is filled with `A` and two bytes. -/
def shortSecond : Version where
  name := "second"
  revision := .revA
  programChecksum := 0x9DE11151
  header := .replicate headerSize 0x41

/-- The two short dumps, and a patch that converts the first program to the second. -/
def shortDumps : Family where
  name := "short"
  versions := [(0x4C590C05, shortFirst), (0x8B1AB7C9, shortSecond)]
  conversions := [⟨.rev0, .revA, some shortConversion⟩]

/-- A patch for the second of `shortDumps` that declares a source of this encoded size, which is
`0x92` if it is not damaged. -/
def shortPatch (size : UInt8) : Bytes :=
  signature ++ [size, 0x83, 0x80, 0x8A, 0x9E, 0xC9, 0xB7, 0x1A, 0x8B] ++ List.replicate 8 0

/-- The first dump under another header is announced to be converted when it is, and again when the
patch has been applied. The second one under another header is announced once. -/
theorem announcements_adaptiveApply_short :
    let first := List.replicate headerSize 0 ++ [1]
    let second := List.replicate headerSize 0 ++ [2, 2]
    announcements (adaptiveApply shortDumps {} first (shortPatch 0x92)).log =
        [.recovered .revisionConversion, .recovered .revisionConversion] ∧
      announcements (adaptiveApply shortDumps {} second (shortPatch 0x92)).log =
        [.recovered .headerRepair] := by
  intro first second
  constructor
  · let output : Bytes := List.replicate headerSize 0x50 ++ [2, 2]
    obtain ⟨misfit, found, done, applied, result⟩ :
        (apply first (shortPatch 0x92)).result = .error (.wrongInputSize 18 17) ∧
          Repair.find shortDumps first (shortPatch 0x92) =
            .convert shortFirst shortFirst shortSecond shortConversion ∧
          (apply (shortFirst.reheader first) shortConversion).result = .ok output ∧
          (apply (shortSecond.reheader output) (shortPatch 0x92)).result = .ok [0x41, 2, 2] ∧
          (adaptiveApply shortDumps {} first (shortPatch 0x92)).result = .ok [0x41, 2, 2] := by
      decide +kernel
    have candidate : Candidate shortDumps {} first (shortPatch 0x92) (some .revisionConversion)
        (shortSecond.reheader output) :=
      (candidate_iff_prepares (by decide)).mpr ⟨rfl, by rw [found]; exact .convert done⟩
    have returns : Returns shortDumps {} first (shortPatch 0x92) .revisionConversion
        [0x41, 2, 2] :=
      ⟨result, ⟨_, misfit, rfl⟩, ⟨_, _, candidate, applied, rfl⟩, nofun⟩
    obtain ⟨-, returned, named, -, told⟩ :=
      @announcements_adaptiveApply shortDumps {} first (shortPatch 0x92)
    rw [told ⟨returns.rejects, _, candidate⟩, (named _).mpr ⟨_, returns⟩]
    rfl
  · obtain ⟨misfit, found, applied, result⟩ :
        (apply second (shortPatch 0x92)).result =
            .error (.wrongInputChecksum 0x8B1AB7C9 0xBB23CCE3) ∧
          Repair.find shortDumps second (shortPatch 0x92) = .reheader shortSecond ∧
          (apply (shortSecond.reheader second) (shortPatch 0x92)).result = .ok [0x41, 2, 2] ∧
          (adaptiveApply shortDumps {} second (shortPatch 0x92)).result = .ok [0x41, 2, 2] := by
      decide +kernel
    have candidate : Candidate shortDumps {} second (shortPatch 0x92) (some .headerRepair)
        (shortSecond.reheader second) :=
      (candidate_iff_prepares (by decide)).mpr ⟨rfl, by rw [found]; exact .reheader⟩
    have returns : Returns shortDumps {} second (shortPatch 0x92) .headerRepair [0x41, 2, 2] :=
      ⟨result, ⟨_, misfit, rfl⟩, ⟨_, _, candidate, applied, rfl⟩, nofun⟩
    have direct : ¬ Converted shortDumps {} second (shortPatch 0x92) := by
      rintro ⟨-, x, converted⟩
      obtain ⟨-, prepares⟩ := (candidate_iff_prepares (by decide)).mp converted
      rw [found] at prepares
      cases prepares
    obtain ⟨-, returned, named, told, -⟩ :=
      @announcements_adaptiveApply shortDumps {} second (shortPatch 0x92)
    rw [told direct, (named _).mpr ⟨_, returns⟩]
    rfl

/-- A conversion in vain is announced like a recovery: a patch for the second dump that declares a
byte too many is applied to nothing. -/
theorem not_announcements_iff_returns :
    let first := List.replicate headerSize 0 ++ [1]
    ¬ (announcements (adaptiveApply shortDumps {} first (shortPatch 0x93)).log ≠ [] ↔
      ∃ recovery out, Returns shortDumps {} first (shortPatch 0x93) recovery out) := by
  intro first same
  obtain ⟨announced, failed⟩ :
      announcements (adaptiveApply shortDumps {} first (shortPatch 0x93)).log =
          [.recovered .revisionConversion] ∧
        (adaptiveApply shortDumps {} first (shortPatch 0x93)).result =
          .error (.wrongInputSize 19 17) := by
    decide +kernel
  obtain ⟨recovery, out, returns⟩ := same.mp (by rw [announced]; exact nofun)
  cases failed.symm.trans returns.result

end Adaptive

end BeatPatch
