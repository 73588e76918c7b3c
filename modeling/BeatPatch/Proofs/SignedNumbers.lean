import BeatPatch.Proofs.PrefixCode

/-!
# Signed numbers

Every signed 64-bit word but the least is read back from its spelling, whatever follows it, and what
a reading consumes is the spelling of what it returns. There are two exceptions, one at either end:
zero is also read from the spelling of a negative zero, and this is what the least word is spelled
like, since its magnitude loses its only bit. Reading a signed number fails where reading an
unsigned one does and nowhere else (`readSigned_signedCode`).
-/

namespace BeatPatch.Number

/-! ## Signed words -/

/-- Only the magnitude of the least word does not fit in 63 bits. -/
theorem natAbs_toInt_lt_iff {v : Int64} :
    v.toInt.natAbs < offsetBound ↔ v ≠ Int64.minValue := by
  have least : Int64.minValue.toInt = -2 ^ 63 := rfl
  have low := Int64.le_toInt v
  have high := Int64.toInt_lt v
  rw [Ne, ← Int64.toInt_inj, least, offsetBound]
  omega

/-- The numbers with a magnitude below `2 ^ 63` are the signed words but the least one. -/
theorem exists_toInt_eq_iff {i : Int} :
    (∃ v : Int64, v.toInt = i ∧ v ≠ Int64.minValue) ↔ i.natAbs < offsetBound := by
  constructor
  · rintro ⟨v, rfl, other⟩
    exact natAbs_toInt_lt_iff.mpr other
  · intro near
    have value : (Int64.ofInt i).toInt = i := by
      have bound : offsetBound = 2 ^ 63 := rfl
      exact Int64.toInt_ofInt_of_le (by omega) (by omega)
    exact ⟨Int64.ofInt i, value, natAbs_toInt_lt_iff.mp (by rwa [value])⟩

/-! ## Reading -/

theorem readSigned_encodeSigned {i : Int} (near : i.natAbs < offsetBound) (offset : Nat)
    (rest : Bytes) :
    readSigned ⟨offset, encodeSigned i ++ rest⟩ =
      .ok i ⟨offset + (encodeSigned i).length, rest⟩ :=
  readSigned_eq_ok_iff_consumes.mpr ⟨near, .inl ⟨rfl, rfl⟩⟩

/-- A signed number is refused where an unsigned one is. -/
theorem readSigned_eq_error_iff {e : PatchError} {r r' : Reader} :
    readSigned r = .error e r' ↔ readWord r = .error e r' := by
  rw [readSigned_eq]
  cases read : readWord r with
  | ok word s => simp [Reading.map_of_ok read]
  | error cause s => simp [Reading.map_of_error read]

/-- The magnitude of the least word is lost, and its sign is left. -/
theorem encodeSigned_minValue : encodeSigned Int64.minValue.toInt = [0x81] := by
  have sign : 2 * Int64.minValue.toInt.natAbs % bound +
      (if Int64.minValue.toInt < 0 then 1 else 0) = 1 := by
    decide
  rw [encodeSigned, sign, encode, if_pos (by decide)]
  rfl

theorem readSigned_negativeZero (offset : Nat) (rest : Bytes) :
    readSigned ⟨offset, [0x81] ++ rest⟩ = .ok 0 ⟨offset + 1, rest⟩ :=
  readSigned_eq_ok_iff_consumes.mpr ⟨by decide, .inr ⟨rfl, rfl, rfl⟩⟩

/-- A signed word that is not the least is read from its spelling wherever that stands and whatever
follows it. What is read is such a word, and the bytes that are consumed are its spelling, or those
of a negative zero. Reading fails as it does for an unsigned number, with the same error at the same
place: the magnitude of a word that has been read always fits. The least word is spelled like a
negative zero and read as zero. -/
theorem readSigned_signedCode :
    (∀ (v : Int64) (offset : Nat) (rest : Bytes), v ≠ Int64.minValue →
        readSigned ⟨offset, encodeSigned v.toInt ++ rest⟩ =
          .ok v.toInt ⟨offset + (encodeSigned v.toInt).length, rest⟩) ∧
      (∀ {i : Int} {r r' : Reader}, readSigned r = .ok i r' →
        (∃ v : Int64, v.toInt = i ∧ v ≠ Int64.minValue) ∧
          (r.Consumes (encodeSigned i) r' ∨ i = 0 ∧ r.Consumes [0x81] r')) ∧
      (∀ {e : PatchError} {r r' : Reader},
        readSigned r = .error e r' ↔ readWord r = .error e r') ∧
      (∀ {word : UInt64} {r r' : Reader}, readWord r = .ok word r' →
        (word >>> 1).toNat < offsetBound ∧ readSigned r = .ok (signed word) r') ∧
      ∀ (offset : Nat) (rest : Bytes),
        readSigned ⟨offset, encodeSigned Int64.minValue.toInt ++ rest⟩ =
          .ok 0 ⟨offset + 1, rest⟩ := by
  refine ⟨fun v offset rest other => ?_, fun read => ?_, readSigned_eq_error_iff, fun read => ?_,
    fun offset rest => ?_⟩
  · exact readSigned_encodeSigned (natAbs_toInt_lt_iff.mpr other) offset rest
  · obtain ⟨near, spelled⟩ := readSigned_eq_ok_iff_consumes.mp read
    exact ⟨exists_toInt_eq_iff.mpr near, spelled⟩
  · exact ⟨toNat_half_lt _, readSigned_eq_ok_iff.mpr ⟨_, read, rfl⟩⟩
  · rw [encodeSigned_minValue]
    exact readSigned_negativeZero offset rest

/-- The least word but one is spelled with all 64 bits set. Behind it stand a negative zero, and a
byte that ends no number. -/
theorem readSigned_signedCode_limits :
    let spelling : Bytes := [0x7F, 0x7E, 0x7E, 0x7E, 0x7E, 0x7E, 0x7E, 0x7E, 0x7E, 0x80]
    let least : Int64 := -0x7FFFFFFFFFFFFFFF
    encodeSigned least.toInt = spelling ∧
      readSigned ⟨5, spelling ++ [0x81, 0x01]⟩ = .ok least.toInt ⟨15, [0x81, 0x01]⟩ ∧
      readSigned ⟨15, [0x81, 0x01]⟩ = .ok 0 ⟨16, [0x01]⟩ ∧
      readSigned ⟨16, [0x01]⟩ = .error (.outOfBounds .patch 17 1) ⟨17, []⟩ := by
  intro spelling least
  obtain ⟨back, only, fails, fits, -⟩ := readSigned_signedCode
  have read : readSigned ⟨5, spelling ++ [0x81, 0x01]⟩ = .ok least.toInt ⟨15, [0x81, 0x01]⟩ := rfl
  have spelled : encodeSigned least.toInt = spelling := by
    rcases (only read).2 with canonical | ⟨zero, -⟩
    · exact (List.append_cancel_right canonical.rest).symm
    · cases zero
  have again := back least 5 [0x81, 0x01] (by decide)
  rw [spelled] at again
  have zero : readWord ⟨15, [0x81, 0x01]⟩ = .ok 1 ⟨16, [0x01]⟩ := rfl
  exact ⟨spelled, again, (fits zero).2, fails.mpr rfl⟩

end BeatPatch.Number
