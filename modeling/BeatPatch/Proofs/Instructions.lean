import BeatPatch.Instruction
import BeatPatch.Proofs.Numbers

/-!
# The spelling of instructions

An instruction is `Encodable` if its run has between one and `2 ^ 62` bytes and its move is
above `-2 ^ 63` and below `2 ^ 63`. These are the instructions that reading returns, and each is
read from its spelling and from nothing else, but that a copy without a move may also be spelled
with a negative zero (`read_eq_ok_iff_consumes`).
-/

namespace BeatPatch

theorem Action.code_ofWord (word : Nat) : (Action.ofWord word).code = word % 4 := by
  have low : word % 4 = 0 ∨ word % 4 = 1 ∨ word % 4 = 2 ∨ word % 4 = 3 := by omega
  rcases low with low | low | low | low <;> rw [Action.ofWord, low] <;> rfl

theorem Action.code_lt (action : Action) : action.code < 4 := by
  cases action <;> decide

theorem Action.code_inj {a b : Action} (same : a.code = b.code) : a = b := by
  cases a <;> cases b <;> first | rfl | cases same

namespace Instruction

/-- The instructions that a patch can hold: the run and the move fit in what its numbers can
say. -/
structure Encodable (i : Instruction) : Prop where
  nonempty : 1 ≤ i.length
  short : i.length ≤ 2 ^ 62
  near : ∀ move, i.move? = some move → move.natAbs < offsetBound

instance : DecidablePred Encodable := fun i =>
  decidable_of_iff (1 ≤ i.length ∧ i.length ≤ 2 ^ 62 ∧ ∀ move ∈ i.move?, move.natAbs < offsetBound)
    ⟨fun ⟨nonempty, short, near⟩ => ⟨nonempty, short, near⟩,
      fun ⟨nonempty, short, near⟩ => ⟨nonempty, short, near⟩⟩

/-- A run length is never refused: a quarter of a word is below `2 ^ 62`. -/
theorem runLength?_eq (word : UInt64) : runLength? word = some (word.toNat / 4 + 1) := by
  have small := word.toNat_lt
  have quarter : (word >>> 2).toNat = word.toNat / 4 := by
    rw [UInt64.toNat_shiftRight, Nat.shiftRight_eq_div_pow]
    rfl
  have fits : word.toNat / 4 + 1 < 2 ^ 64 := by omega
  have one : (1 : UInt64).toNat = 1 := rfl
  rw [runLength?, Number.add?_eq, quarter, one, if_pos (Number.bound_eq ▸ fits), Option.map_some,
    UInt64.toNat_ofNat_of_lt' fits]

/-- The opening number of an encodable instruction keeps its run length whole. -/
theorem Encodable.word_eq {i : Instruction} (sound : i.Encodable) :
    i.word = (i.length - 1) * 4 + i.action.code := by
  have short := sound.short
  rw [word, Nat.mod_eq_of_lt (by rw [Number.bound_eq]; omega)]

theorem Encodable.word_lt {i : Instruction} (sound : i.Encodable) : i.word < Number.bound := by
  have short := sound.short
  have code := i.action.code_lt
  rw [sound.word_eq, Number.bound_eq]
  omega

theorem Encodable.length_of_word {i : Instruction} (sound : i.Encodable) :
    i.word / 4 + 1 = i.length := by
  have nonempty := sound.nonempty
  have code := i.action.code_lt
  rw [sound.word_eq]
  omega

theorem Encodable.action_of_word {i : Instruction} (sound : i.Encodable) :
    Action.ofWord i.word = i.action := by
  have code := i.action.code_lt
  apply Action.code_inj
  rw [Action.code_ofWord, sound.word_eq]
  omega

/-- A word opens every instruction with its action and run length. -/
theorem word_of_opening {i : Instruction} {word : UInt64}
    (action : i.action = Action.ofWord word.toNat) (length : i.length = word.toNat / 4 + 1) :
    i.word = word.toNat := by
  have small := word.toNat_lt
  have run : (i.length - 1) * 4 % Number.bound = word.toNat / 4 * 4 := by
    rw [length, Nat.add_sub_cancel, Nat.mod_eq_of_lt (by rw [Number.bound_eq]; omega)]
  rw [Instruction.word, run, action, Action.code_ofWord]
  omega

/-- What follows the opening number is read from the payload, or from a negative zero. -/
theorem readPayload_eq_ok_iff {length : Nat} {action : Action} {i : Instruction} {r r' : Reader} :
    readPayload length action r = .ok i r' ↔ i.action = action ∧ i.length = length ∧
      (∀ move, i.move? = some move → move.natAbs < offsetBound) ∧
      (r.Consumes i.payload r' ∨ i.move? = some 0 ∧ r.Consumes [0x81] r') := by
  cases action with
  | sourceRead =>
    constructor
    · intro h
      cases h
      exact ⟨rfl, rfl, by simp [move?], .inl (Reader.consumes_nil_iff.mpr rfl)⟩
    · rintro ⟨action, rfl, -, taken⟩
      cases i <;> cases action
      simp only [payload, move?, Reader.consumes_nil_iff, reduceCtorEq, false_and, or_false]
        at taken
      subst taken
      rfl
  | targetRead =>
    rw [readPayload, Reading.map_eq_ok_iff]
    constructor
    · rintro ⟨data, read, rfl⟩
      obtain ⟨size, taken⟩ := readBytes_eq_ok_iff.mp read
      exact ⟨rfl, size, by simp [move?], .inl taken⟩
    · rintro ⟨action, size, -, taken⟩
      cases i <;> cases action
      simp only [move?, reduceCtorEq, false_and, or_false] at taken
      exact ⟨_, readBytes_eq_ok_iff.mpr ⟨size, taken⟩, rfl⟩
  | sourceCopy | targetCopy =>
    rw [readPayload, Reading.map_eq_ok_iff]
    constructor
    · rintro ⟨move, read, rfl⟩
      obtain ⟨near, taken⟩ := Number.readSigned_eq_ok_iff_consumes.mp read
      refine ⟨rfl, rfl, fun _ same => Option.some.inj same ▸ near, ?_⟩
      exact taken.imp_right (And.imp_left (congrArg some))
    · rintro ⟨action, rfl, near, taken⟩
      cases i <;> cases action
      refine ⟨_, Number.readSigned_eq_ok_iff_consumes.mpr ⟨near _ rfl, ?_⟩, rfl⟩
      exact taken.imp_right (And.imp_left Option.some.inj)

/-- An encodable instruction is read from its spelling and from nothing else, unless it is a
copy without a move: that one is read also from a negative zero. -/
theorem read_eq_ok_iff_consumes {i : Instruction} {r r' : Reader} :
    read r = .ok i r' ↔ i.Encodable ∧ (r.Consumes i.encode r' ∨
      i.move? = some 0 ∧ r.Consumes (Number.encode i.word ++ [0x81]) r') := by
  rw [read_eq_ok_iff]
  constructor
  · rintro ⟨word, s, length, opening, run, payload⟩
    rw [runLength?_eq, Option.some.injEq] at run
    subst run
    obtain ⟨action, length, near, taken⟩ := readPayload_eq_ok_iff.mp payload
    have small := word.toNat_lt
    have first := Number.readWord_eq_ok_iff.mp opening
    rw [← word_of_opening action length] at first
    refine ⟨⟨by omega, by omega, near⟩, ?_⟩
    exact taken.imp first.trans (And.imp_right first.trans)
  · rintro ⟨sound, taken⟩
    have word := UInt64.toNat_ofNat_of_lt' sound.word_lt
    have spelled : ∃ s, r.Consumes (Number.encode i.word) s ∧
        (s.Consumes i.payload r' ∨ i.move? = some 0 ∧ s.Consumes [0x81] r') := by
      rcases taken with whole | ⟨zero, whole⟩
      · obtain ⟨s, first, second⟩ := whole.split
        exact ⟨s, first, .inl second⟩
      · obtain ⟨s, first, second⟩ := whole.split
        exact ⟨s, first, .inr ⟨zero, second⟩⟩
    obtain ⟨s, first, payload⟩ := spelled
    refine ⟨UInt64.ofNat i.word, s, i.length, ?_, ?_, ?_⟩
    · exact Number.readWord_eq_ok_iff.mpr (by rwa [word])
    · rw [runLength?_eq, word, sound.length_of_word]
    · rw [word, sound.action_of_word]
      exact readPayload_eq_ok_iff.mpr ⟨rfl, rfl, sound.near, payload⟩

end Instruction

end BeatPatch
