import BeatPatch.Proofs.Gate

/-!
# Wrong inputs

A dump is the wrong one exactly if the patch opens with a declared size that is not that of the
dump, or if that size is right and the word where the footer starts is not the checksum of the dump
(`Mismatch`). Any other failure says that the patch is damaged, and so does every failure behind
these two checks (`apply_eq_wrongInput_iff`).
-/

namespace BeatPatch

/-- What is found to be damage is called corruption, and no checksum was verified for it. -/
theorem PatchError.isCorruption_of_isDamage {e : PatchError} (damage : e.isDamage = true) :
    e.isCorruption = true ∧ ∀ what expected actual, e ≠ .checksumMismatch what expected actual := by
  cases e <;> cases damage <;> exact ⟨rfl, nofun⟩

namespace Footer

theorem isDamage_of_expectedSource {patch : Bytes} {e : PatchError}
    (short : expectedSource patch = .error e) : e.isDamage = true := by
  by_cases long : size ≤ patch.length
  · rw [expectedSource_of_le long] at short
    cases short
  · rw [expectedSource, start, if_neg long] at short
    cases short
    rfl

theorem expectedSource_eq_ok_iff_wordAt {patch : Bytes} {sum : UInt32} :
    expectedSource patch = .ok sum ↔
      size ≤ patch.length ∧ patch.wordAt (patch.length - size) = sum := by
  by_cases long : size ≤ patch.length
  · simp [expectedSource_of_le long, long]
  · rw [expectedSource, start, if_neg long]
    exact iff_of_false (fun failed => by cases failed) fun h => long h.1

end Footer

/-- A size is declared by the spelling of a number behind the signature. -/
theorem Patch.declaredSource_eq_ok_iff_opens {patch : Bytes} {declared : Nat} :
    declaredSource patch = .ok declared ↔ declared < Number.bound ∧
      ∃ rest, patch = signature ++ Number.encode declared ++ rest := by
  simp only [declaredSource_eq_ok_iff, readSourceSize, Reading.bind_eq_ok_iff,
    readSignature_eq_ok_iff, Number.read_eq_ok_iff_consumes]
  constructor
  · rintro ⟨r, -, s, opening, fits, number⟩
    exact ⟨fits, r.rest, (opening.trans number).rest⟩
  · rintro ⟨fits, rest, rfl⟩
    have whole : (Reader.start _).Consumes (signature ++ Number.encode declared) ⟨_, rest⟩ :=
      ⟨rfl, (Nat.zero_add _).symm⟩
    obtain ⟨s, opening, number⟩ := whole.split
    exact ⟨_, (), s, opening, fits, number⟩

/-- How a dump is not the one that a patch is for, by the size at the front of the patch or else by
the checksum where its footer starts; and the failure that reports it. -/
inductive Mismatch (source patch : Bytes) : PatchError → Prop where
  | size {declared : Nat} {rest : Bytes} (fits : declared < Number.bound)
      (opens : patch = signature ++ Number.encode declared ++ rest)
      (other : declared ≠ source.length) :
      Mismatch source patch (.wrongInputSize declared source.length)
  | checksum {rest : Bytes} (fits : source.length < Number.bound)
      (opens : patch = signature ++ Number.encode source.length ++ rest)
      (long : Footer.size ≤ patch.length)
      (other : patch.wordAt (patch.length - Footer.size) ≠ crc32 source) :
      Mismatch source patch
        (.wrongInputChecksum (patch.wordAt (patch.length - Footer.size)) (crc32 source))

section WrongInputs

variable {source patch : Bytes} {e : PatchError}

/-- The gate compares sizes before it looks for a footer. -/
theorem Admission.gate_eq_error_iff {declared : Nat} :
    gate source patch declared = .error e ↔
      declared ≠ source.length ∧ e = .wrongInputSize declared source.length ∨
      declared = source.length ∧ (Footer.expectedSource patch = .error e ∨
        ∃ required, Footer.expectedSource patch = .ok required ∧ required ≠ crc32 source ∧
          e = .wrongInputChecksum required (crc32 source)) := by
  unfold gate
  by_cases size : declared = source.length
  · rw [if_neg (not_not.mpr size)]
    cases Footer.expectedSource patch with
    | error cause => simp [size]
    | ok required =>
      by_cases sum : crc32 source = required
      · simp [size, sum]
      · simp [size, sum, Ne.symm sum, eq_comm]
  · rw [if_pos size]
    simp [size, eq_comm]

/-- What the gate reports is a mismatch, or there is no footer. -/
theorem Mismatch.of_gate {declared : Nat} (declares : Patch.declaredSource patch = .ok declared)
    (refused : Admission.gate source patch declared = .error e) :
    Mismatch source patch e ∨ e.isDamage = true := by
  obtain ⟨fits, rest, opens⟩ := Patch.declaredSource_eq_ok_iff_opens.mp declares
  rcases Admission.gate_eq_error_iff.mp refused with
    ⟨other, rfl⟩ | ⟨rfl, short | ⟨required, named, other, rfl⟩⟩
  · exact .inl (.size fits opens other)
  · exact .inr (Footer.isDamage_of_expectedSource short)
  · obtain ⟨long, rfl⟩ := Footer.expectedSource_eq_ok_iff_wordAt.mp named
    exact .inl (.checksum fits opens long other)

theorem Mismatch.isWrongInput (mismatch : Mismatch source patch e) : e.isWrongInput = true := by
  cases mismatch <;> rfl

/-- A mismatch is reported, whatever else is wrong with the patch. -/
theorem Mismatch.apply_eq (mismatch : Mismatch source patch e) :
    (apply source patch).result = .error e := by
  cases mismatch with
  | size fits opens other =>
    have declares := Patch.declaredSource_eq_ok_iff_opens.mpr ⟨fits, _, opens⟩
    exact apply_result_of_error (Admission.check_of_gate declares
      (Admission.gate_eq_error_iff.mpr (.inl ⟨other, rfl⟩)))
  | checksum fits opens long other =>
    have declares := Patch.declaredSource_eq_ok_iff_opens.mpr ⟨fits, _, opens⟩
    exact apply_result_of_error (Admission.check_of_gate declares
      (Admission.gate_eq_error_iff.mpr
        (.inr ⟨rfl, .inr ⟨_, Footer.expectedSource_of_le long, other, rfl⟩⟩)))

/-- A failure is a mismatch, or damage, or the declared target cannot be held. -/
theorem mismatch_or_damage_of_apply (failed : (apply source patch).result = .error e) :
    Mismatch source patch e ∨ e.isDamage = true ∨
      ∃ p, Patch.parse patch = .ok p ∧ offsetBound ≤ p.targetSize ∧
        e = .targetTooLarge p.targetSize := by
  cases admitted : Admission.check source patch with
  | error cause =>
    rw [apply_result_of_error admitted] at failed
    cases failed
    rcases Admission.damage_or_gate_of_check admitted with damage | ⟨declared, declares, refused⟩
    · exact .inr (.inl damage)
    · exact (Mismatch.of_gate declares refused).imp_right .inl
  | ok a =>
    obtain ⟨p, parsed, -, -, size⟩ := Admission.parse_of_check admitted
    rcases settles_apply admitted with settles | tooLarge
    · rw [failed] at settles
      exact .inr (.inl settles)
    · obtain ⟨q, parsed', large⟩ := exists_parse_of_apply_tooLarge tooLarge
      rw [parsed] at parsed'
      cases parsed'
      rw [failed, ← size] at tooLarge
      cases tooLarge
      exact .inr (.inr ⟨p, parsed, large, rfl⟩)

end WrongInputs

/-- A dump is reported to be the wrong one exactly if its size is not the one declared behind the
signature, or if it is and the word where the footer starts is not its checksum. Nothing else in the
patch matters. Every other failure is corruption, and none is about a checksum that was verified;
only a target of `2 ^ 63` bytes or more is not held at all. So a patch that declares the size of a
dump and names its checksum never finds it to be the wrong one, whatever its instructions are. -/
theorem apply_eq_wrongInput_iff {source patch : Bytes} :
    (∀ e, (apply source patch).result = .error e ∧ e.isWrongInput = true ↔
      Mismatch source patch e) ∧
    (∀ e, (apply source patch).result = .error e → e.isWrongInput = false →
      (e.isCorruption = true ∧
        ∀ what expected actual, e ≠ .checksumMismatch what expected actual) ∨
      ∃ p, Patch.parse patch = .ok p ∧ offsetBound ≤ p.targetSize ∧
        e = .targetTooLarge p.targetSize) ∧
    (Patch.Fits patch source →
      ∀ e, (apply source patch).result = .error e → e.isWrongInput = false) := by
  refine ⟨fun e => ⟨?_, fun mismatch => ⟨mismatch.apply_eq, mismatch.isWrongInput⟩⟩, ?_, ?_⟩
  · rintro ⟨failed, wrong⟩
    rcases mismatch_or_damage_of_apply failed with mismatch | damage | ⟨p, -, -, rfl⟩
    · exact mismatch
    · rw [PatchError.isWrongInput_of_isDamage damage] at wrong
      cases wrong
    · cases wrong
  · intro e failed other
    rcases mismatch_or_damage_of_apply failed with mismatch | damage | large
    · rw [mismatch.isWrongInput] at other
      cases other
    · exact .inl (PatchError.isCorruption_of_isDamage damage)
    · exact .inr large
  · intro fits e
    exact fits.isWrongInput_eq_false

/-- A patch that ends behind the size of another dump, without a footer; one whose footer is also
its header, so that it names its signature for a checksum; and one for the empty dump, whose
metadata is cut off. -/
theorem apply_eq_wrongInput_iff_short :
    let headerOnly := signature ++ [0x80] ++ List.replicate 7 0
    let cutOff := signature ++ [0x80, 0x80, 0x8F] ++ List.replicate 12 0
    (apply [] (signature ++ [0x85])).result = .error (.wrongInputSize 5 0) ∧
      Mismatch [] headerOnly (.wrongInputChecksum 0x31535042 0) ∧
      ∃ e, (apply [] cutOff).result = .error e ∧ Patch.Fits cutOff [] ∧ e.isWrongInput = false ∧
        e.isCorruption = true := by
  intro headerOnly cutOff
  have size : Mismatch [] (signature ++ [0x85]) (.wrongInputSize 5 0) :=
    @Mismatch.size [] _ 5 [] (by decide) (by decide +kernel) (by decide)
  have sum : (apply [] headerOnly).result = .error (.wrongInputChecksum 0x31535042 0) := by
    decide +kernel
  have damaged : (apply [] cutOff).result = .error (.outOfBounds .patch 7 15) := by
    decide +kernel
  have fits : Patch.Fits cutOff [] := ⟨by decide, by decide +kernel⟩
  obtain ⟨shorter, -, -⟩ := @apply_eq_wrongInput_iff [] (signature ++ [0x85])
  obtain ⟨named, -, -⟩ := @apply_eq_wrongInput_iff [] headerOnly
  obtain ⟨-, others, passes⟩ := @apply_eq_wrongInput_iff [] cutOff
  have right := passes fits _ damaged
  rcases others _ damaged right with ⟨corruption, -⟩ | ⟨p, -, -, large⟩
  · exact ⟨((shorter _).mpr size).1, (named _).mp ⟨sum, rfl⟩, _, damaged, fits, right, corruption⟩
  · cases large

end BeatPatch
