import BeatPatch.Proofs.Numbers

/-!
# Numbers as a prefix code

Every 64-bit word has exactly one spelling that is read as this word, and no spelling is the
beginning of another, so a number is told from what follows it (`readWord_prefixCode`). How many
bytes a spelling takes depends on how many numbers the shorter ones have used up
(`length_encode_le_iff`). Ten are enough for every word.
-/

namespace BeatPatch.Number

/-! ## Lengths -/

/-- How many numbers have a spelling of at most `k` bytes: the numbers below this one. -/
def spellable : Nat → Nat
  | 0 => 0
  | k + 1 => 128 * (spellable k + 1)

theorem length_encode_le_iff {n k : Nat} : (encode n).length ≤ k ↔ n < spellable k := by
  induction n using encode.induct generalizing k with
  | case1 n small =>
    rw [encode, if_pos small, List.length_singleton]
    cases k with
    | zero => simp [spellable]
    | succ k => rw [spellable]; omega
  | case2 n large ih =>
    rw [encode, if_neg large, List.length_cons]
    cases k with
    | zero => simp [spellable]
    | succ k => rw [Nat.succ_le_succ_iff, ih, spellable]; omega

theorem bound_lt_spellable : bound < spellable 10 := by decide

theorem length_encode_toNat (word : UInt64) :
    1 ≤ (encode word.toNat).length ∧ (encode word.toNat).length ≤ 10 :=
  ⟨encode_length_pos _, length_encode_le_iff.mpr (Nat.lt_trans word.toNat_lt bound_lt_spellable)⟩

/-! ## Spellings -/

/-- The bytes are read as the word, and none of them is left. -/
def IsSpelling (bytes : Bytes) (word : UInt64) : Prop :=
  readWord (Reader.start bytes) = .ok word ⟨bytes.length, []⟩

theorem isSpelling_iff {bytes : Bytes} {word : UInt64} :
    IsSpelling bytes word ↔ bytes = encode word.toNat := by
  rw [IsSpelling, readWord_eq_ok_iff]
  constructor
  · exact fun consumes => consumes.rest.trans (List.append_nil _)
  · rintro rfl
    exact ⟨(List.append_nil _).symm, (Nat.zero_add _).symm⟩

theorem readWord_encode (word : UInt64) (offset : Nat) (rest : Bytes) :
    readWord ⟨offset, encode word.toNat ++ rest⟩ =
      .ok word ⟨offset + (encode word.toNat).length, rest⟩ :=
  readWord_eq_ok_iff.mpr ⟨rfl, rfl⟩

/-- Spellings are told apart from the front: what begins with the spelling of a word is read as that
word, whatever follows. -/
theorem eq_of_encode_isPrefix {v w : UInt64} (begins : encode v.toNat <+: encode w.toNat) :
    v = w := by
  obtain ⟨rest, whole⟩ := begins
  have first := readWord_encode v 0 rest
  have second := readWord_encode w 0 []
  rw [List.append_nil, ← whole, first] at second
  exact (EStateM.Result.ok.inj second).1

/-- The spelling of a word is read as that word wherever it stands and whatever follows it, and
takes from one to ten bytes. The bytes that are consumed for a word are its spelling. So every word
has exactly one spelling, and none begins with another. -/
theorem readWord_prefixCode :
    (∀ word offset rest, readWord ⟨offset, encode word.toNat ++ rest⟩ =
        .ok word ⟨offset + (encode word.toNat).length, rest⟩) ∧
      (∀ word : UInt64, 1 ≤ (encode word.toNat).length ∧ (encode word.toNat).length ≤ 10) ∧
      (∀ {r word r'}, readWord r = .ok word r' → r.Consumes (encode word.toNat) r') ∧
      (∀ word, ∃! bytes, IsSpelling bytes word) ∧
      ∀ {v w : UInt64}, encode v.toNat <+: encode w.toNat → v = w := by
  refine ⟨readWord_encode, length_encode_toNat, readWord_eq_ok_iff.mp, fun word => ?_,
    eq_of_encode_isPrefix⟩
  exact ⟨encode word.toNat, isSpelling_iff.mpr rfl, fun bytes => isSpelling_iff.mp⟩

/-- The spelling of the largest word takes ten bytes, of which the last adds nothing and ends it. -/
theorem readWord_prefixCode_largest :
    let spelling : Bytes := [0x7F, 0x7E, 0x7E, 0x7E, 0x7E, 0x7E, 0x7E, 0x7E, 0x7E, 0x80]
    readWord ⟨3, spelling ++ [0x81]⟩ = .ok 0xFFFFFFFFFFFFFFFF ⟨13, [0x81]⟩ ∧
      encode 0xFFFFFFFFFFFFFFFF = spelling ∧ IsSpelling spelling 0xFFFFFFFFFFFFFFFF := by
  intro spelling
  have read : readWord ⟨3, spelling ++ [0x81]⟩ = .ok 0xFFFFFFFFFFFFFFFF ⟨13, [0x81]⟩ := rfl
  have consumes := readWord_prefixCode.2.2.1 read
  have spelled : encode 0xFFFFFFFFFFFFFFFF = spelling :=
    (List.append_cancel_right consumes.rest).symm
  exact ⟨read, spelled, isSpelling_iff.mpr spelled.symm⟩

end BeatPatch.Number
