import BeatPatch.Proofs.Damage
import BeatPatch.Proofs.Footers
import BeatPatch.Proofs.Headers

/-!
# The gate

A patch fits a dump if it declares its size behind the signature and names its checksum in the
footer (`Patch.Fits`). This alone decides whether a dump is the wrong one: a patch that fits a
dump never fails with a wrong input (`Patch.Fits.isWrongInput_eq_false`), and on every dump of
another size or checksum it always does (`Patch.Fits.misfit`). A patch that succeeds gives a
target of the declared size (`parse_of_apply`).
-/

namespace BeatPatch

namespace Patch

/-- Reads up to the size of the dump. -/
def readSourceSize : Reading Nat := do
  readSignature
  Number.read

/-- The size of its dump that a patch declares, whatever follows it. -/
def declaredSource (patch : Bytes) : Except PatchError Nat :=
  match readSourceSize (Reader.start patch) with
  | .ok size _ => .ok size
  | .error e _ => .error e

theorem declaredSource_eq_ok_iff {patch : Bytes} {size : Nat} :
    declaredSource patch = .ok size ↔ ∃ r, readSourceSize (Reader.start patch) = .ok size r := by
  unfold declaredSource
  cases readSourceSize (Reader.start patch) with
  | ok found r => simp
  | error e r => simp

/-- The size of the dump is the first number of the header. -/
theorem declaredSource_of_readHeader {patch metadata : Bytes} {sourceSize targetSize : Nat}
    {body : Reader}
    (header : readHeader (Reader.start patch) = .ok (sourceSize, targetSize, metadata) body) :
    declaredSource patch = .ok sourceSize := by
  simp only [readHeader, Reading.bind_eq_ok_iff, Reading.pure_eq_ok_iff, Prod.mk.injEq] at header
  obtain ⟨u, a, opening, _, b, first, _, c, -, _, d, -, _, e, -, ⟨rfl, -, -⟩, -⟩ := header
  exact declaredSource_eq_ok_iff.mpr ⟨b, Reading.bind_eq_ok_iff.mpr ⟨u, a, opening, first⟩⟩

/-- The patch declares the size of the dump and names its checksum. The rest of it may be
damaged. -/
structure Fits (patch dump : Bytes) : Prop where
  size : declaredSource patch = .ok dump.length
  checksum : Footer.expectedSource patch = .ok (crc32 dump)

end Patch

namespace Admission

/-- Compares a dump with the size that is declared, and then with the checksum in the footer. -/
def gate (source patch : Bytes) (declared : Nat) : Except PatchError Unit :=
  if declared ≠ source.length then .error (.wrongInputSize declared source.length)
  else
    match Footer.expectedSource patch with
    | .error e => .error e
    | .ok required =>
      if crc32 source ≠ required then .error (.wrongInputChecksum required (crc32 source))
      else .ok ()

/-- Reads the header behind the size of the dump. -/
def readRest : Reading (Nat × Nat) := do
  let targetSize ← Number.read
  let metadataSize ← Number.read
  let _ ← readBytes metadataSize
  return (targetSize, metadataSize)

/-- A patch is admitted by a reading, the gate and another reading. -/
theorem readFor_eq (source patch : Bytes) :
    readFor source patch = Patch.readSourceSize >>= fun declared =>
      MonadExcept.ofExcept (gate source patch declared) >>= fun _ => readRest := by
  simp only [readFor, Patch.readSourceSize, bind_assoc]
  congr 1
  funext _
  congr 1
  funext declared
  unfold gate
  by_cases size : declared ≠ source.length
  · rw [if_pos size, if_pos size]
    rfl
  · rw [if_neg size, if_neg size]
    cases Footer.expectedSource patch with
    | error e => rfl
    | ok required =>
      have reached : (MonadExcept.ofExcept (.ok required) : Reading UInt32) = pure required := rfl
      rw [reached, pure_bind]
      by_cases sum : crc32 source ≠ required
      · simp only [if_pos sum]
        rfl
      · simp only [if_neg sum]
        rfl

theorem onlyDamage_readSourceSize : Reading.OnlyDamage Patch.readSourceSize :=
  onlyDamage_readSignature.bind fun _ => Number.onlyDamage_read

theorem onlyDamage_readRest : Reading.OnlyDamage readRest := by
  refine Number.onlyDamage_read.bind fun targetSize => ?_
  refine Number.onlyDamage_read.bind fun metadataSize => ?_
  exact (onlyDamage_readBytes metadataSize).bind fun _ => .pure _

section Gate

variable {source patch dump : Bytes} {declared : Nat}

/-- A dump that the gate refuses is refused for that cause, whatever follows in the header. -/
theorem check_of_gate {e : PatchError} (declares : Patch.declaredSource patch = .ok declared)
    (refused : gate source patch declared = .error e) : check source patch = .error e := by
  obtain ⟨s, read⟩ := Patch.declaredSource_eq_ok_iff.mp declares
  rw [check, readFor_eq, Reading.bind_of_ok read, refused]
  rfl

theorem gate_eq_ok_iff {u : Unit} :
    gate source patch declared = .ok u ↔
      declared = source.length ∧ Footer.expectedSource patch = .ok (crc32 source) := by
  unfold gate
  by_cases size : declared ≠ source.length
  · rw [if_pos size]
    exact ⟨nofun, fun h => absurd h.1 size⟩
  · rw [if_neg size]
    cases Footer.expectedSource patch with
    | error e => exact ⟨nofun, nofun⟩
    | ok required =>
      by_cases sum : crc32 source ≠ required
      · simp [sum, Ne.symm sum]
      · simp_all

/-- Of the patch, the gate looks at the checksum of the dump. -/
theorem gate_congr {other : Bytes}
    (same : Footer.expectedSource other = Footer.expectedSource patch) :
    gate source other declared = gate source patch declared := by
  rw [gate, same]
  rfl

/-- Behind a header that is read only the gate decides. -/
theorem check_of_readHeader {targetSize : Nat} {metadata : Bytes} {body : Reader}
    (header : Patch.readHeader (Reader.start patch) = .ok (declared, targetSize, metadata) body) :
    check source patch =
      (gate source patch declared).map fun _ => ⟨targetSize, metadata.length, body⟩ := by
  cases passed : gate source patch declared with
  | error e => exact check_of_gate (Patch.declaredSource_of_readHeader header) passed
  | ok u =>
    obtain ⟨rfl, footer⟩ := gate_eq_ok_iff.mp passed
    exact check_eq_ok_iff.mpr ⟨⟨metadata, rfl, header⟩, footer⟩

/-- A dump is refused because the header is damaged, or at the gate. -/
theorem damage_or_gate_of_check {e : PatchError} (refused : check source patch = .error e) :
    e.isDamage = true ∨
      ∃ declared, Patch.declaredSource patch = .ok declared ∧
        gate source patch declared = .error e := by
  rw [check, readFor_eq] at refused
  cases opening : Patch.readSourceSize (Reader.start patch) with
  | error cause s =>
    rw [Reading.bind_of_error opening] at refused
    cases refused
    exact .inl (onlyDamage_readSourceSize _ _ _ opening)
  | ok declared s =>
    rw [Reading.bind_of_ok opening] at refused
    cases passed : gate source patch declared with
    | error cause =>
      rw [passed] at refused
      cases refused
      exact .inr ⟨declared, Patch.declaredSource_eq_ok_iff.mpr ⟨s, opening⟩, passed⟩
    | ok u =>
      have reached : (MonadExcept.ofExcept (.ok u) : Reading Unit) = pure u := rfl
      rw [passed, reached, pure_bind] at refused
      cases rest : readRest s with
      | ok sizes r => rw [rest] at refused; cases refused
      | error cause r =>
        rw [rest] at refused
        cases refused
        exact .inl (onlyDamage_readRest _ _ _ rest)

theorem gate_ne_tooLarge {size : Nat} :
    gate source patch declared ≠ .error (.targetTooLarge size) := by
  intro refused
  unfold gate at refused
  split at refused
  · cases refused
  · cases footer : Footer.expectedSource patch with
    | error e =>
      rw [footer] at refused
      cases refused
      rw [Footer.expectedSource, Footer.start] at footer
      split at footer <;> cases footer
    | ok required =>
      rw [footer] at refused
      simp only at refused
      split at refused <;> cases refused

theorem gate_of_fits (fits : Patch.Fits patch source) :
    gate source patch source.length = .ok () := by
  rw [gate, if_neg (not_not.mpr rfl), fits.checksum]
  exact if_neg (not_not.mpr rfl)

/-- A patch that fits one dump names the checksum of every other dump of that size, if it is
another one. -/
theorem gate_of_otherChecksum (fits : Patch.Fits patch dump) (size : source.length = dump.length)
    (other : crc32 source ≠ crc32 dump) :
    gate source patch dump.length = .error (.wrongInputChecksum (crc32 dump) (crc32 source)) := by
  rw [gate, if_neg (not_not.mpr size.symm), fits.checksum]
  exact if_pos other

/-- A patch that fits one dump finds every dump of another size or checksum to be the wrong one. -/
theorem gate_of_misfit (fits : Patch.Fits patch dump)
    (other : ¬ (source.length = dump.length ∧ crc32 source = crc32 dump)) :
    ∃ e, gate source patch dump.length = .error e ∧ e.isWrongInput = true := by
  by_cases size : dump.length ≠ source.length
  · exact ⟨_, if_pos size, rfl⟩
  · have same := (not_not.mp size).symm
    exact ⟨_, gate_of_otherChecksum fits same fun sum => other ⟨same, sum⟩, rfl⟩

end Gate

end Admission

section Apply

variable {source patch dump : Bytes}

/-- Behind the gate a patch gives a target of the declared size or is damaged, unless the target
cannot be held. -/
theorem settles_apply {a : Admission} (admitted : Admission.check source patch = .ok a) :
    Settles (·.length = a.targetSize) (apply source patch).result ∨
      (apply source patch).result = .error (.targetTooLarge a.targetSize) := by
  rcases Nat.lt_or_ge a.targetSize offsetBound with small | large
  · left
    rw [apply_result_of_lt admitted small]
    refine (Machine.settles_run source.toArray (Machine.blank a.targetSize) (a.walk patch)).map
      fun m size => ?_
    rw [Array.length_toList, size, Machine.blank, Array.size_replicate]
  · exact .inr (apply_result_of_le admitted large)

/-- A patch that is applied is admitted, and gives a target of the declared size, which can be
held. -/
theorem exists_check_of_apply {target : Bytes}
    (applied : (apply source patch).result = .ok target) :
    ∃ a, Admission.check source patch = .ok a ∧ a.targetSize < offsetBound ∧
      target.length = a.targetSize := by
  cases admitted : Admission.check source patch with
  | error e => rw [apply_result_of_error admitted] at applied; cases applied
  | ok a =>
    have settles := settles_apply admitted
    rw [applied] at settles
    refine ⟨a, rfl, Nat.lt_of_not_le fun large => ?_, settles.resolve_right nofun⟩
    rw [apply_result_of_le admitted large] at applied
    cases applied

/-- A patch fails because it is damaged, or at the gate, or because its target cannot be held. -/
theorem damage_or_gate_of_apply {e : PatchError}
    (failed : (apply source patch).result = .error e) :
    e.isDamage = true ∨
      (∃ declared, Patch.declaredSource patch = .ok declared ∧
        Admission.gate source patch declared = .error e) ∨
      ∃ size, e = .targetTooLarge size := by
  cases admitted : Admission.check source patch with
  | error cause =>
    rw [apply_result_of_error admitted] at failed
    cases failed
    exact (Admission.damage_or_gate_of_check admitted).imp_right .inl
  | ok a =>
    rcases settles_apply admitted with settles | large
    · rw [failed] at settles
      exact .inl settles
    · rw [failed] at large
      cases large
      exact .inr (.inr ⟨_, rfl⟩)

/-- A patch that fits never says that the dump is the wrong one. -/
theorem Patch.Fits.isWrongInput_eq_false (fits : Patch.Fits patch dump) {e : PatchError}
    (failed : (apply dump patch).result = .error e) : e.isWrongInput = false := by
  rcases damage_or_gate_of_apply failed with damage | ⟨declared, declares, refused⟩ | ⟨size, rfl⟩
  · exact PatchError.isWrongInput_of_isDamage damage
  · rw [fits.size] at declares
    cases declares
    rw [Admission.gate_of_fits fits] at refused
    cases refused
  · rfl

/-- A patch that fits one dump fails with a wrong input on every dump of another size or
checksum. -/
theorem Patch.Fits.misfit (fits : Patch.Fits patch dump)
    (other : ¬ (source.length = dump.length ∧ crc32 source = crc32 dump)) :
    ∃ e, (apply source patch).result = .error e ∧ e.isWrongInput = true := by
  obtain ⟨e, refused, wrong⟩ := Admission.gate_of_misfit fits other
  exact ⟨e, apply_result_of_error (Admission.check_of_gate fits.size refused), wrong⟩

/-- The target of a patch is one that can be held. -/
theorem length_lt_of_apply {target : Bytes} (applied : (apply source patch).result = .ok target) :
    target.length < offsetBound := by
  obtain ⟨a, -, small, size⟩ := exists_check_of_apply applied
  rw [size]
  exact small

/-- A patch that is applied to a dump fits it. -/
theorem Patch.fits_of_apply {target : Bytes} (applied : (apply dump patch).result = .ok target) :
    Patch.Fits patch dump := by
  obtain ⟨a, admitted, -⟩ := exists_check_of_apply applied
  obtain ⟨⟨metadata, -, header⟩, footer⟩ := Admission.check_eq_ok_iff.mp admitted
  exact ⟨Patch.declaredSource_of_readHeader header, footer⟩

/-- A patch that is admitted is parsed: it declares the size of the dump and names its checksum. -/
theorem Admission.parse_of_check {a : Admission} (admitted : check source patch = .ok a) :
    ∃ p, Patch.parse patch = .ok p ∧ p.sourceSize = source.length ∧
      p.footer.source = crc32 source ∧ p.targetSize = a.targetSize := by
  obtain ⟨⟨metadata, -, header⟩, footer⟩ := check_eq_ok_iff.mp admitted
  obtain ⟨f, read, named⟩ := Footer.expectedSource_eq_ok_iff.mp footer
  let p : Patch := ⟨patch, source.length, a.targetSize, metadata, f, a.body⟩
  exact ⟨p, Patch.parse_eq_ok_iff.mpr ⟨rfl, header, read⟩, rfl, named, rfl⟩

/-- A patch that is parsed with the size and the checksum of the dump is admitted. -/
theorem Admission.check_of_parse {p : Patch} (parsed : Patch.parse patch = .ok p)
    (size : p.sourceSize = source.length) (sum : p.footer.source = crc32 source) :
    check source patch = .ok ⟨p.targetSize, p.metadata.length, p.body⟩ := by
  obtain ⟨-, header, footer⟩ := Patch.parse_eq_ok_iff.mp parsed
  rw [size] at header
  exact check_eq_ok_iff.mpr ⟨⟨p.metadata, rfl, header⟩,
    Footer.expectedSource_eq_ok_iff.mpr ⟨p.footer, footer, sum⟩⟩

/-- A patch that is applied is parsed, and the target has the size it declares. -/
theorem parse_of_apply {target : Bytes} (applied : (apply source patch).result = .ok target) :
    ∃ p, Patch.parse patch = .ok p ∧ p.sourceSize = source.length ∧
      p.footer.source = crc32 source ∧ p.targetSize = target.length := by
  obtain ⟨a, admitted, -, size⟩ := exists_check_of_apply applied
  rw [size]
  exact Admission.parse_of_check admitted

/-- A target is too large exactly if the patch is admitted and declares it so. -/
theorem apply_tooLarge_iff {size : Nat} :
    (apply source patch).result = .error (.targetTooLarge size) ↔
      ∃ a, Admission.check source patch = .ok a ∧ offsetBound ≤ a.targetSize ∧
        a.targetSize = size := by
  constructor
  · intro large
    cases admitted : Admission.check source patch with
    | error e =>
      rw [apply_result_of_error admitted] at large
      cases large
      rcases Admission.damage_or_gate_of_check admitted with damage | ⟨declared, -, refused⟩
      · cases damage
      · exact absurd refused Admission.gate_ne_tooLarge
    | ok a =>
      rcases Nat.lt_or_ge a.targetSize offsetBound with small | beyond
      · have settles :=
          Machine.settles_run source.toArray (Machine.blank a.targetSize) (a.walk patch)
        rw [apply_result_of_lt admitted small] at large
        have settled :
            Settles (fun _ => True) (.error (.targetTooLarge size) : Except PatchError Bytes) :=
          large ▸ settles.map fun _ _ => trivial
        cases settled
      · rw [apply_result_of_le admitted beyond] at large
        cases large
        exact ⟨a, rfl, beyond, rfl⟩
  · rintro ⟨a, admitted, large, rfl⟩
    exact apply_result_of_le admitted large

theorem exists_parse_of_apply_tooLarge {size : Nat}
    (large : (apply source patch).result = .error (.targetTooLarge size)) :
    ∃ p, Patch.parse patch = .ok p ∧ offsetBound ≤ p.targetSize := by
  obtain ⟨a, admitted, beyond, -⟩ := apply_tooLarge_iff.mp large
  obtain ⟨p, parsed, -, -, target⟩ := Admission.parse_of_check admitted
  exact ⟨p, parsed, target ▸ beyond⟩

end Apply

/-! ## Rejected dumps -/

namespace Patch

/-- The patch finds the dump to be the wrong one. -/
def Rejects (patch dump : Bytes) : Prop :=
  ∃ e, (apply dump patch).result = .error e ∧ e.isWrongInput = true

variable {patch dump : Bytes}

/-- A dump of another size than declared is rejected, whatever follows that size. -/
theorem apply_of_otherSize {declared : Nat} (declares : declaredSource patch = .ok declared)
    (size : declared ≠ dump.length) :
    (apply dump patch).result = .error (.wrongInputSize declared dump.length) :=
  apply_result_of_error (Admission.check_of_gate declares (if_pos size))

/-- A dump of the size and not of the checksum that a patch asks for is rejected for that. -/
theorem Fits.apply_of_otherChecksum {source : Bytes} (fits : Fits patch dump)
    (size : source.length = dump.length) (other : crc32 source ≠ crc32 dump) :
    (apply source patch).result = .error (.wrongInputChecksum (crc32 dump) (crc32 source)) :=
  apply_result_of_error
    (Admission.check_of_gate fits.size (Admission.gate_of_otherChecksum fits size other))

theorem rejects_of_otherSize {declared : Nat} (declares : declaredSource patch = .ok declared)
    (size : declared ≠ dump.length) : Rejects patch dump :=
  ⟨_, apply_of_otherSize declares size, rfl⟩

/-- A patch that rejects a dump declares a size. -/
theorem Rejects.exists_declared (rejects : Rejects patch dump) :
    ∃ declared, declaredSource patch = .ok declared := by
  obtain ⟨e, failed, wrong⟩ := rejects
  rcases damage_or_gate_of_apply failed with damage | ⟨declared, declares, -⟩ | ⟨size, rfl⟩
  · rw [PatchError.isWrongInput_of_isDamage damage] at wrong
    cases wrong
  · exact ⟨declared, declares⟩
  · cases wrong

end Patch

end BeatPatch
