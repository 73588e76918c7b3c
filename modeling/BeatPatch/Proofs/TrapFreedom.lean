import BeatPatch.Proofs.KnownDumps
import BeatPatch.Proofs.TrapFreeRuns

/-!
# What can trap

Reading a patch, walking over its instructions and applying it, also with repairs, are computations
that a damaged patch ends with a failure. None of the guards in front of their operations is
missing, whatever the patch declares, but for one: a declared target of `2 ^ 63` bytes or more is
asked for as a buffer before anything shows that it cannot be held. `traps_only_for_size` says when
that happens. Where the patches are `Roomy`, nothing traps at all.
-/

namespace BeatPatch

/-- The target that a patch declares can be held, also behind a copier header. -/
def Patch.Roomy (patch : Bytes) : Prop :=
  ∀ p, parse patch = .ok p → p.targetSize + copierHeaderSize < offsetBound

/-- Every conversion patch of the family is held in a buffer. -/
def Family.Held (family : Family) : Prop :=
  ∀ source target conversion, family.conversion source target = some conversion →
    conversion.length < offsetBound

/-- Every conversion patch of the family declares a target that can be held. -/
def Family.Roomy (family : Family) : Prop :=
  ∀ source target conversion, family.conversion source target = some conversion →
    Patch.Roomy conversion

namespace Trapping

variable {α β : Type}

/-! ## Adaptive application -/

/-- An attempt after a repair: `none` if the patch still does not fit. -/
def attempt : Trapping Bytes → Trapping (Option Bytes)
  | .ok target => return some target
  | .error (.failure e) => if e.isWrongInput then return none else fail e
  | .error (.trap t) => trap t

/-- The dump with its header replaced by that of the version, copied over the old one as far as the
dump reaches. -/
def reheader (v : Version) (dump : Bytes) : Trapping Bytes := do
  let size := min dump.length headerSize
  let header ← slice v.header.toArray 0 size
  let repaired ← overwrite dump.toArray 0 size header
  return repaired.toList

/-- The bytes before a position and those from it on. -/
def splitAt (bytes : Bytes) (position : Nat) : Trapping (Bytes × Bytes) :=
  if position ≤ bytes.length then .ok (bytes.splitAt position) else trap .access

/-- The repair for a dump that a patch does not fit. -/
def findRepair (family : Family) (source patch : Bytes) : Trapping Repair :=
  match expectedSource patch with
  | .ok checksum =>
    match family.lookup checksum with
    | none => return .none
    | some required => return Repair.towards family source required
  | .error (.failure _) => return .none
  | .error (.trap t) => trap t

/-- Makes a repair and tries again. -/
def makeRepair (source patch : Bytes) : Repair → Trapping (Option Bytes)
  | .none | .unavailable _ _ => return none
  | .reheader required => do
    let repaired ← reheader required source
    attempt (apply repaired patch)
  | .convert _ canonical required conversion => do
    let old ← reheader canonical source
    match ← attempt (apply old conversion) with
    | none => return none
    | some converted => do
      let repaired ← reheader required converted
      attempt (apply repaired patch)

/-- Takes off a copier header, tries again, and puts it in front of the output. -/
def removeCopierHeader (source patch : Bytes) : Trapping (Option Bytes) := do
  let (header, program) ← splitAt source (min source.length copierHeaderSize)
  match ← attempt (apply program patch) with
  | none => return none
  | some target => do
    let size ← add (UInt64.ofNat header.length) (UInt64.ofNat target.length)
    reserve size.toNat
    return some (header ++ target)

/-- The repairs that are allowed, in order, until one has helped. -/
def tryRepairs (family : Family) (options : RecoveryOptions) (source patch : Bytes) :
    Trapping (Option Bytes) := do
  let repaired ←
    if options.knownDumps then findRepair family source patch >>= makeRepair source patch
    else pure none
  match repaired with
  | some target => return some target
  | none => if options.copierHeader then removeCopierHeader source patch else return none

/-- Applies a patch to a dump, repairing the dump if the patch does not fit it. -/
def adaptiveApply (family : Family) (options : RecoveryOptions) (source patch : Bytes) :
    Trapping Bytes :=
  match apply source patch with
  | .ok target => return target
  | .error (.failure misfit) =>
    if misfit.isWrongInput then do
      match ← tryRepairs family options source patch with
      | some target => return target
      | none => fail misfit
    else fail misfit
  | .error (.trap t) => trap t

/-! ## Computations that may ask for too large a buffer -/

/-- The result as it is held in buffers: a value of too large a size traps, and so does a target
that is declared too large. -/
def hold (size : α → Nat) : Except PatchError α → Trapping α
  | .ok a => if size a < offsetBound then .ok a else trap (.allocation (size a))
  | .error (.targetTooLarge n) => trap (.allocation n)
  | .error e => fail e

/-- The size of what a repair gives, which is nothing if it has not helped. -/
def helpSize (target : Option Bytes) : Nat := target.elim 0 List.length

section Hold

variable {size : α → Nat} {y : Except PatchError α} {a : α}

theorem hold_of_lt (small : size a < offsetBound) : hold size (.ok a) = .ok a := if_pos small

theorem hold_of_wrongInput {e : PatchError} (wrong : e.isWrongInput = true) :
    hold size (.error e) = fail e := by
  cases e <;> first | rfl | cases wrong

theorem hold_eq_trap_iff {t : Trap} :
    hold size y = trap t ↔ (∃ n, y = .error (.targetTooLarge n) ∧ t = .allocation n) ∨
      ∃ a, y = .ok a ∧ offsetBound ≤ size a ∧ t = .allocation (size a) := by
  cases y with
  | ok a =>
    rw [hold]
    by_cases small : size a < offsetBound
    · rw [if_pos small]
      refine iff_of_false nofun ?_
      rintro (⟨n, ⟨⟩, -⟩ | ⟨_, ⟨⟩, large, -⟩)
      exact absurd small (Nat.not_lt_of_le large)
    · rw [if_neg small]
      constructor
      · rintro ⟨⟩
        exact .inr ⟨a, rfl, Nat.le_of_not_lt small, rfl⟩
      · rintro (⟨n, ⟨⟩, -⟩ | ⟨_, ⟨⟩, -, rfl⟩)
        rfl
  | error e =>
    constructor
    · intro trapped
      cases e <;> cases trapped
      exact .inl ⟨_, rfl, rfl⟩
    · rintro (⟨n, ⟨⟩, rfl⟩ | ⟨_, ⟨⟩, -⟩)
      rfl

/-- What does not trap is reported. -/
theorem hold_eq_report_or_trap : hold size y = report y ∨ ∃ t, hold size y = trap t := by
  cases y with
  | ok a =>
    by_cases small : size a < offsetBound
    · exact .inl (if_pos small)
    · exact .inr ⟨_, if_neg small⟩
  | error e =>
    cases e with
    | targetTooLarge n => exact .inr ⟨_, rfl⟩
    | _ => exact .inl rfl

theorem hold_bind {size' : β → Nat} {f : α → Trapping β} {g : α → Except PatchError β}
    (next : ∀ a, y = .ok a →
      (if size a < offsetBound then f a else trap (.allocation (size a))) = hold size' (g a)) :
    (hold size y >>= f) = hold size' (y >>= g) := by
  cases y with
  | ok a =>
    refine .trans ?_ (next a rfl)
    rw [hold]
    by_cases small : size a < offsetBound
    · rw [if_pos small, if_pos small]
      rfl
    · rw [if_neg small, if_neg small]
      rfl
  | error e => cases e <;> rfl

/-- An attempt after a repair holds what the patch makes. -/
theorem attempt_hold (recovery : Recovery) (application : Logged Bytes) :
    attempt (hold List.length application.result) =
      hold helpSize (BeatPatch.attempt recovery application).result := by
  cases applied : application.result with
  | ok target =>
    rw [attempt_of_ok applied, hold, hold]
    by_cases small : target.length < offsetBound
    · rw [if_pos small, if_pos (show helpSize (some target) < offsetBound from small)]
      rfl
    · rw [if_neg small, if_neg (show ¬ helpSize (some target) < offsetBound from small)]
      rfl
  | error e =>
    cases e with
    | wrongInputSize | wrongInputChecksum =>
      rw [attempt_of_misfit applied rfl]
      rfl
    | _ =>
      rw [attempt_of_error applied rfl]
      rfl

end Hold

variable {family : Family} {options : RecoveryOptions} {source patch : Bytes}

theorem apply_eq_hold (sourceHeld : source.length < offsetBound)
    (held : patch.length < offsetBound) :
    apply source patch = hold List.length (BeatPatch.apply source patch).result := by
  by_cases small : ∀ a, Admission.check source patch = .ok a → a.targetSize < offsetBound
  · rw [apply_eq_report sourceHeld held small]
    rcases @hold_eq_report_or_trap _ List.length (BeatPatch.apply source patch).result with
      same | ⟨t, trapped⟩
    · exact same.symm
    · rcases hold_eq_trap_iff.mp trapped with ⟨n, large, -⟩ | ⟨target, applied, large, -⟩
      · obtain ⟨a, admitted, beyond, -⟩ := apply_tooLarge_iff.mp large
        exact absurd (small a admitted) (Nat.not_lt_of_le beyond)
      · exact absurd (length_lt_of_apply applied) (Nat.not_lt_of_le large)
  · simp only [not_forall, Nat.not_lt] at small
    obtain ⟨a, admitted, large⟩ := small
    rw [apply_of_large held admitted large, apply_result_of_le admitted large]
    rfl

theorem drop_min (bytes : Bytes) (position : Nat) :
    bytes.drop (min bytes.length position) = bytes.drop position := by
  rcases Nat.le_total bytes.length position with short | long
  · rw [Nat.min_eq_left short, List.drop_length, List.drop_of_length_le short]
  · rw [Nat.min_eq_right long]

theorem splitAt_min (bytes : Bytes) (position : Nat) :
    splitAt bytes (min bytes.length position) = .ok (bytes.take position, bytes.drop position) := by
  rw [splitAt, if_pos (Nat.min_le_left _ _), List.splitAt_eq, drop_min, Nat.min_comm,
    ← List.take_eq_take_min]

/-- The two runs of a header are equally long, that of the version and that of the dump. -/
theorem reheader_eq (v : Version) (dump : Bytes) : reheader v dump = .ok (v.reheader dump) := by
  have full : v.header.toList.length = headerSize := Vector.length_toList
  have inside : 0 + min dump.length headerSize ≤ v.header.toArray.size := by
    rw [Vector.size_toArray]
    omega
  have old : 0 + min dump.length headerSize ≤ dump.toArray.size := by
    rw [List.size_toArray]
    omega
  have header : Machine.slice v.header.toArray 0 (min dump.length headerSize) =
      v.header.toList.take dump.length := by
    have run := Machine.slice_toArray v.header.toList 0 (min dump.length headerSize)
    have whole := List.take_eq_take_min (l := v.header.toList) (i := dump.length)
    rw [full] at whole
    rwa [Vector.toArray_toList, List.drop_zero, ← whole] at run
  have whole : dump.toArray.toList =
      [] ++ (dump.take (min dump.length headerSize) ++ dump.drop (min dump.length headerSize)) := by
    rw [List.take_append_drop]
    rfl
  have size : (dump.take (min dump.length headerSize)).length =
      (Machine.slice v.header.toArray 0 (min dump.length headerSize)).length := by
    rw [length_slice inside, List.length_take]
    omega
  have placed : (Machine.place dump.toArray 0
      (Machine.slice v.header.toArray 0 (min dump.length headerSize))).toList =
        v.reheader dump := by
    refine (Machine.toList_place whole size).trans ?_
    rw [header, drop_min]
    rfl
  rw [reheader, slice_of_le inside]
  show (overwrite dump.toArray 0 (min dump.length headerSize) _ >>= _) = _
  rw [overwrite_of_le old (length_slice inside), ← placed]
  rfl

theorem findRepair_eq (held : patch.length < offsetBound) :
    findRepair family source patch = .ok (Repair.find family source patch) := by
  rw [findRepair, expectedSource_eq held, Repair.find]
  cases Footer.expectedSource patch with
  | error e => rfl
  | ok checksum =>
    simp only [report, Except.toOption, Option.bind_some]
    cases family.lookup checksum <;> rfl

/-! ## Repairs -/

section Repairs

variable (sourceHeld : source.length < offsetBound) (held : patch.length < offsetBound)

include sourceHeld held

theorem makeRepair_eq_hold (conversionsHeld : family.Held) :
    (findRepair family source patch >>= makeRepair source patch) =
      hold helpSize (repairKnownDump family source patch).result := by
  rw [findRepair_eq held]
  show makeRepair source patch (Repair.find family source patch) = _
  unfold repairKnownDump
  cases found : Repair.find family source patch with
  | none => rfl
  | unavailable current required => rfl
  | reheader required =>
    rw [makeRepair, reheader_eq]
    simp only [Logged.bind_result, Logged.note_result]
    show attempt (apply (required.reheader source) patch) = _
    rw [apply_eq_hold (by simpa using sourceHeld) held]
    exact attempt_hold ..
  | convert current canonical required conversion =>
    have available := (Repair.find_eq_convert_iff.mp ⟨current, found⟩).2.available
    rw [makeRepair, reheader_eq]
    simp only [Logged.bind_result, Logged.note_result]
    show (attempt (apply (canonical.reheader source) conversion) >>= _) = _
    rw [apply_eq_hold (by simpa using sourceHeld) (conversionsHeld _ _ _ available),
      attempt_hold .revisionConversion]
    refine hold_bind fun helped converting => ?_
    cases helped with
    | none => rfl
    | some converted =>
      have small : converted.length < offsetBound :=
        length_lt_of_apply (result_of_attempt converting)
      rw [if_pos (show helpSize (some converted) < offsetBound from small)]
      show (reheader required converted >>= _) = _
      rw [reheader_eq]
      show attempt (apply (required.reheader converted) patch) = _
      rw [apply_eq_hold (by simpa using small) held]
      exact attempt_hold ..

theorem removeCopierHeader_eq_hold :
    removeCopierHeader source patch =
      hold helpSize (BeatPatch.removeCopierHeader source patch).result := by
  have dropped : (source.drop copierHeaderSize).length < offsetBound := by
    rw [List.length_drop]
    omega
  unfold removeCopierHeader BeatPatch.removeCopierHeader
  rw [splitAt_min, Logged.bind_result]
  show (attempt (apply (source.drop copierHeaderSize) patch) >>= _) = _
  rw [apply_eq_hold dropped held, attempt_hold .copierHeaderRemoval]
  refine hold_bind fun helped applying => ?_
  cases helped with
  | none => rfl
  | some target =>
    have small : target.length < 2 ^ 63 := length_lt_of_apply (result_of_attempt applying)
    have kept : (source.take copierHeaderSize).length ≤ copierHeaderSize := List.length_take_le _ _
    have bound : copierHeaderSize = 512 := rfl
    have first : (UInt64.ofNat (source.take copierHeaderSize).length).toNat =
        (source.take copierHeaderSize).length := toNat_word (by rw [offsetBound]; omega)
    have second : (UInt64.ofNat target.length).toNat = target.length := toNat_word small
    have fits : (UInt64.ofNat (source.take copierHeaderSize).length).toNat +
        (UInt64.ofNat target.length).toNat < 2 ^ 64 := by omega
    have whole : helpSize (some (source.take copierHeaderSize ++ target)) =
        (source.take copierHeaderSize).length + target.length := List.length_append
    rw [if_pos (show helpSize (some target) < offsetBound from small)]
    dsimp only
    rw [add_of_lt fits]
    show (reserve _ >>= _) = hold helpSize (.ok (some (source.take copierHeaderSize ++ target)))
    rw [toNat_add_of_lt fits, first, second, reserve, hold, whole]
    split <;> rfl

theorem tryRepairs_eq_hold (conversionsHeld : family.Held) :
    tryRepairs family options source patch =
      hold helpSize (BeatPatch.tryRepairs family options source patch).result := by
  have second : (if options.copierHeader then removeCopierHeader source patch else pure none) =
      hold helpSize
        (ifAllowed options.copierHeader (BeatPatch.removeCopierHeader source patch)).result := by
    cases options.copierHeader with
    | true => exact removeCopierHeader_eq_hold sourceHeld held
    | false => rfl
  rw [tryRepairs_eq, orThen_result]
  unfold tryRepairs
  cases options.knownDumps with
  | true =>
    rw [if_pos rfl, makeRepair_eq_hold sourceHeld held conversionsHeld]
    refine hold_bind fun repaired _ => ?_
    cases repaired with
    | some target => rfl
    | none => exact second
  | false => exact second

/-- Adaptive application holds the target that it comes to. -/
theorem adaptiveApply_eq_hold (conversionsHeld : family.Held) :
    adaptiveApply family options source patch =
      hold List.length (BeatPatch.adaptiveApply family options source patch).result := by
  unfold adaptiveApply
  rw [apply_eq_hold sourceHeld held]
  rcases decisive_or_misfit (BeatPatch.apply source patch).result with
    decisive | ⟨e, failed, wrong⟩
  · rw [adaptiveApply_eq_apply decisive]
    cases applied : (BeatPatch.apply source patch).result with
    | ok target => rw [hold_of_lt (length_lt_of_apply applied)]; rfl
    | error e =>
      have other := decisive e applied
      cases e <;> first | rfl | cases other
  · rw [adaptiveApply_of_misfit failed wrong, failed, hold_of_wrongInput wrong]
    show (if e.isWrongInput then _ else _) = _
    rw [if_pos wrong, tryRepairs_eq_hold sourceHeld held conversionsHeld]
    refine hold_bind fun repaired _ => ?_
    cases repaired with
    | some target => rfl
    | none => exact (hold_of_wrongInput wrong).symm

end Repairs

/-! ## What traps -/

/-- What asks for a buffer of some size on behalf of a dump: the direct attempt or a retry whose
patch is admitted and declares a target of this size, or what puts a copier header back in front of
the target of the dump without it. -/
inductive Asks (family : Family) (options : RecoveryOptions) (source patch : Bytes) :
    Nat → Prop where
  | direct {a : Admission} (admitted : Admission.check source patch = .ok a) :
      Asks family options source patch a.targetSize
  | retry {x p : Bytes} {a : Admission} (retry : Retry family options source patch x p)
      (admitted : Admission.check x p = .ok a) : Asks family options source patch a.targetSize
  | output {target : Bytes} (allowed : options.copierHeader = true)
      (applied : (BeatPatch.apply (source.drop copierHeaderSize) patch).result = .ok target) :
      Asks family options source patch ((source.take copierHeaderSize).length + target.length)

section Asks

variable {n : Nat}

/-- Where there is room for all targets, no buffer is too large. -/
theorem Asks.lt_of_roomy (asks : Asks family options source patch n) (roomy : Patch.Roomy patch)
    (conversionsRoomy : family.Roomy) : n < offsetBound := by
  have declared {x p : Bytes} {a : Admission} (fits : Patch.Roomy p)
      (admitted : Admission.check x p = .ok a) : a.targetSize < offsetBound := by
    obtain ⟨q, parsed, -, -, size⟩ := Admission.parse_of_check admitted
    have := fits q parsed
    omega
  cases asks with
  | direct admitted => exact declared roomy admitted
  | retry retry admitted =>
    cases retry with
    | repaired candidate => exact declared roomy admitted
    | conversion allowed requires converts =>
      exact declared (conversionsRoomy _ _ _ converts.available) admitted
  | output allowed applied =>
    obtain ⟨q, parsed, -, -, size⟩ := parse_of_apply applied
    have fits := roomy q parsed
    have kept : (source.take copierHeaderSize).length ≤ copierHeaderSize := List.length_take_le _ _
    omega

/-- A target that is too large was asked for by an attempt that declares it so. -/
theorem asks_of_tooLarge
    (large : (BeatPatch.adaptiveApply family options source patch).result =
      .error (.targetTooLarge n)) : offsetBound ≤ n ∧ Asks family options source patch n := by
  have ending : Ending family options source patch _ := ending_adaptiveApply
  rw [large] at ending
  cases ending with
  | direct same =>
    obtain ⟨a, admitted, beyond, rfl⟩ := apply_tooLarge_iff.mp same
    exact ⟨beyond, .direct admitted⟩
  | failed retry failure other =>
    obtain ⟨a, admitted, beyond, rfl⟩ := apply_tooLarge_iff.mp failure
    exact ⟨beyond, .retry retry admitted⟩

/-- An output that is too large is one with a copier header in front. -/
theorem asks_of_output {output : Bytes}
    (success : (BeatPatch.adaptiveApply family options source patch).result = .ok output)
    (large : offsetBound ≤ output.length) : Asks family options source patch output.length := by
  obtain ⟨recovery, x, target, candidate, applied, rfl⟩ := exists_candidate success
  cases candidate with
  | asIs | reheadered | converted =>
    exact absurd (length_lt_of_apply applied) (Nat.not_lt_of_le large)
  | stripped allowed =>
    rw [List.length_append]
    exact .output allowed applied

end Asks

/-- The first computation does what the second does, or it traps for a buffer that cannot be held.
It does the former if there is room. -/
def Follows (room : Prop) (x : Trapping α) (y : Except PatchError α) : Prop :=
  x = report y ∨ ¬ room ∧ ∃ size, offsetBound ≤ size ∧ x = trap (.allocation size)

section Adaptive

variable (sourceHeld : source.length < offsetBound) (held : patch.length < offsetBound)
  (conversionsHeld : family.Held)

include sourceHeld held conversionsHeld

/-- Adaptive application traps exactly for the target or the output that it comes to, where that is
too large. -/
theorem adaptiveApply_eq_trap_iff {t : Trap} :
    adaptiveApply family options source patch = trap t ↔ ∃ n, offsetBound ≤ n ∧
      t = .allocation n ∧ Asks family options source patch n ∧
      ((BeatPatch.adaptiveApply family options source patch).result = .error (.targetTooLarge n) ∨
        ∃ output, (BeatPatch.adaptiveApply family options source patch).result = .ok output ∧
          output.length = n) := by
  rw [adaptiveApply_eq_hold sourceHeld held conversionsHeld, hold_eq_trap_iff]
  constructor
  · rintro (⟨n, large, rfl⟩ | ⟨output, success, large, rfl⟩)
    · obtain ⟨beyond, asks⟩ := asks_of_tooLarge large
      exact ⟨n, beyond, rfl, asks, .inl large⟩
    · exact ⟨_, large, rfl, asks_of_output success large, .inr ⟨output, success, rfl⟩⟩
  · rintro ⟨n, beyond, rfl, -, large | ⟨output, success, rfl⟩⟩
    · exact .inl ⟨n, large, rfl⟩
    · exact .inr ⟨output, success, beyond, rfl⟩

theorem follows_adaptiveApply :
    Follows (Patch.Roomy patch ∧ family.Roomy) (adaptiveApply family options source patch)
      (BeatPatch.adaptiveApply family options source patch).result := by
  have held' : adaptiveApply family options source patch =
      hold List.length (BeatPatch.adaptiveApply family options source patch).result :=
    adaptiveApply_eq_hold sourceHeld held conversionsHeld
  rcases hold_eq_report_or_trap with reported | ⟨t, trapped⟩
  · exact .inl (held'.trans reported)
  · obtain ⟨n, beyond, rfl, asks, -⟩ :=
      (adaptiveApply_eq_trap_iff sourceHeld held conversionsHeld).mp (held'.trans trapped)
    refine .inr ⟨fun room => ?_, n, beyond, held'.trans trapped⟩
    exact absurd (asks.lt_of_roomy room.1 room.2) (Nat.not_lt_of_le beyond)

end Adaptive

/-- Whatever a patch declares, reading it and walking over its instructions end with a value or a
failure. So does applying it, unless it is admitted and declares a target that cannot be held; and
adaptive application, unless a buffer for the target of some attempt cannot be held: that of the
attempt at which it stops, or that of the output with a copier header in front. The dump and the
patches themselves are held, as what is passed in a buffer is. -/
theorem traps_only_for_size (sourceHeld : source.length < offsetBound)
    (held : patch.length < offsetBound) (conversionsHeld : family.Held) :
    parse patch = report (Patch.parse patch) ∧
    (∀ p, Patch.parse patch = .ok p → iterate p = .ok p.stream.results) ∧
    (∀ t, apply source patch = trap t ↔ ∃ a, Admission.check source patch = .ok a ∧
      offsetBound ≤ a.targetSize ∧ t = .allocation a.targetSize) ∧
    ((∀ a, Admission.check source patch = .ok a → a.targetSize < offsetBound) →
      apply source patch = report (BeatPatch.apply source patch).result) ∧
    Follows (Patch.Roomy patch ∧ family.Roomy) (adaptiveApply family options source patch)
      (BeatPatch.adaptiveApply family options source patch).result ∧
    ∀ t, adaptiveApply family options source patch = trap t ↔ ∃ n, offsetBound ≤ n ∧
      t = .allocation n ∧ Asks family options source patch n ∧
      ((BeatPatch.adaptiveApply family options source patch).result = .error (.targetTooLarge n) ∨
        ∃ output, (BeatPatch.adaptiveApply family options source patch).result = .ok output ∧
          output.length = n) := by
  refine ⟨parse_eq held, fun p parsed => iterate_eq held parsed, fun t => ?_, fun small => ?_,
    ?_, fun t => ?_⟩
  · exact apply_eq_trap_iff sourceHeld held
  · exact apply_eq_report sourceHeld held small
  · exact follows_adaptiveApply sourceHeld held conversionsHeld
  · exact adaptiveApply_eq_trap_iff sourceHeld held conversionsHeld

/-- A patch for the empty dump that declares a target of `2 ^ 63` bytes. -/
def beyondMemory : Bytes :=
  signature ++ [0x80, 0x00, 0x7f, 0x7e, 0x7e, 0x7e, 0x7e, 0x7e, 0x7e, 0xfe, 0x80,
    0, 0, 0, 0, 0, 0, 0, 0, 0x9b, 0x39, 0xf6, 0xe6]

theorem check_beyondMemory :
    Admission.check [] beyondMemory = .ok ⟨offsetBound, 0, ⟨15, beyondMemory.drop 15⟩⟩ := by
  decide +kernel

theorem held_superMarioBros2 : (Family.superMarioBros2 {}).Held := by
  intro source target conversion available
  cases source <;> cases target <;> cases available

theorem roomy_superMarioBros2 : (Family.superMarioBros2 {}).Roomy := by
  intro source target conversion available
  cases source <;> cases target <;> cases available

theorem roomy_tinyPatch : Patch.Roomy (tinyPatch 9) := by
  intro p parsed
  have size : (Patch.parse (tinyPatch 9)).map Patch.targetSize = .ok 2 := by decide +kernel
  rw [parsed] at size
  rw [show p.targetSize = 2 from Except.ok.inj size]
  decide

/-- A damaged patch fails, and one that declares too large a target traps, be it at once or behind
what is taken for a copier header. -/
theorem traps_only_for_size_beyondMemory :
    beyondMemory.length < offsetBound ∧ (tinyPatch 9).length < offsetBound ∧
      (Family.superMarioBros2 {}).Held ∧
      parse beyondMemory = report (Patch.parse beyondMemory) ∧
      apply [] beyondMemory = trap (.allocation offsetBound) ∧
      adaptiveApply (Family.superMarioBros2 {}) {} [9] beyondMemory =
        trap (.allocation offsetBound) ∧
      apply [0x41, 0x41] (tinyPatch 9) = fail (.outOfBounds .source 0 9) ∧
      adaptiveApply (Family.superMarioBros2 {}) {} [0x41, 0x41] (tinyPatch 9) =
        fail (.outOfBounds .source 0 9) := by
  have long : beyondMemory.length < offsetBound := by decide
  have short : (tinyPatch 9).length < offsetBound := by decide +kernel
  have damaged : (BeatPatch.apply [0x41, 0x41] (tinyPatch 9)).result =
      .error (.outOfBounds .source 0 9) := by decide +kernel
  have admitted : (Admission.check [0x41, 0x41] (tinyPatch 9)).map (·.targetSize) = .ok 2 := by
    decide +kernel
  have small (a : Admission) (found : Admission.check [0x41, 0x41] (tinyPatch 9) = .ok a) :
      a.targetSize < offsetBound := by
    rw [found] at admitted
    rw [show a.targetSize = 2 from Except.ok.inj admitted]
    decide
  -- The one byte is taken for a copier header, and the patch is admitted to what is behind it.
  have stripped : Retry (Family.superMarioBros2 {}) {} [9] beyondMemory [] beyondMemory :=
    .repaired (.stripped rfl)
  have beyond : (BeatPatch.adaptiveApply (Family.superMarioBros2 {}) {} [9] beyondMemory).result =
      .error (.targetTooLarge offsetBound) := by decide +kernel
  obtain ⟨read, -, trapped, -, -, -⟩ := @traps_only_for_size _ {} [] beyondMemory (by decide) long
    held_superMarioBros2
  obtain ⟨-, -, -, -, -, adaptive⟩ := @traps_only_for_size _ {} [9] beyondMemory (by decide) long
    held_superMarioBros2
  obtain ⟨-, -, -, ended, follows, -⟩ := @traps_only_for_size _ {} [0x41, 0x41] (tinyPatch 9)
    (by decide) short held_superMarioBros2
  refine ⟨long, short, held_superMarioBros2, read, ?_, ?_, ?_, ?_⟩
  · exact (trapped _).mpr ⟨_, check_beyondMemory, Nat.le_refl _, rfl⟩
  · exact (adaptive _).mpr ⟨_, Nat.le_refl _, rfl, .retry stripped check_beyondMemory, .inl beyond⟩
  · rw [ended small, damaged]
    rfl
  · rw [follows.resolve_right fun tight => tight.1 ⟨roomy_tinyPatch, roomy_superMarioBros2⟩,
      adaptiveApply_eq_apply (by rw [damaged]; rintro _ ⟨⟩; rfl), damaged]
    rfl

/-- Not every patch ends with a value or a failure. -/
theorem not_ends_apply : ¬ ∀ source patch : Bytes, source.length < offsetBound →
    patch.length < offsetBound → Ends (apply source patch) := by
  intro ends
  obtain ⟨result, ended⟩ := ends [] beyondMemory (by decide) (by decide)
  rw [apply_of_large (by decide) check_beyondMemory (Nat.le_refl _)] at ended
  exact report_ne_trap _ _ ended.symm

end Trapping

end BeatPatch
