import BeatPatch.Proofs.Instructions
import BeatPatch.Stream

/-!
# The spelling of instruction streams

A walk over the spellings of encodable instructions yields these instructions and ends behind
them (`collect_of_consumes`). Conversely, a walk without a fault has passed the spellings of
what it yielded, as long as no copy was spelled with a negative zero (`consumes_of_collect`).
-/

namespace BeatPatch

theorem Instruction.encode_length_pos (i : Instruction) : 0 < i.encode.length := by
  have := Number.encode_length_pos i.word
  rw [encode, List.length_append]
  omega

namespace Stream

/-- The item is a copy whose move is spelled by the one byte of negative zero. -/
def Item.NegativeZero (bytes : Bytes) (item : Item) : Prop :=
  item.instruction.move?.isSome ∧ ∃ word r,
    Number.readWord ⟨item.start, bytes.drop item.start⟩ = .ok word r ∧ r.rest.head? = some 0x81

instance (bytes : Bytes) (item : Item) : Decidable (item.NegativeZero bytes) :=
  match read : Number.readWord ⟨item.start, bytes.drop item.start⟩ with
  | .ok _ r => decidable_of_iff (item.instruction.move?.isSome ∧ r.rest.head? = some 0x81)
      (by simp [Item.NegativeZero, read])
  | .error .. => .isFalse (by simp [Item.NegativeZero, read])

namespace Walk

theorem collect_of_consumes {is : List Instruction} {r r' : Reader}
    (sound : ∀ i ∈ is, i.Encodable) (spelled : r.Consumes (is.flatMap Instruction.encode) r') :
    ∃ items, items.map Item.instruction = is ∧
      collect { reader := r, limit := r'.offset } =
        ⟨items, none, { reader := r', limit := r'.offset }⟩ := by
  induction is generalizing r with
  | nil =>
    obtain rfl := Reader.consumes_nil_iff.mp spelled
    exact ⟨[], rfl, collect_of_none (next?_eq_none_iff.mpr (.inr (Nat.le_refl _)))⟩
  | cons i is ih =>
    obtain ⟨s, first, others⟩ := spelled.split
    obtain ⟨items, same, walked⟩ := ih (fun j hj => sound j (List.mem_cons_of_mem i hj)) others
    have read : Instruction.read r = .ok i s :=
      Instruction.read_eq_ok_iff_consumes.mpr ⟨sound i List.mem_cons_self, .inl first⟩
    have before : r.offset < r'.offset := by
      have := i.encode_length_pos
      rw [others.offset, first.offset]
      omega
    have next : next? { reader := r, limit := r'.offset } =
        some (.ok i, { reader := s, limit := r'.offset }) :=
      next?_eq_ok_iff.mpr ⟨rfl, before, s, read, rfl⟩
    refine ⟨⟨r.offset, i⟩ :: items, by rw [List.map_cons, same], ?_⟩
    rw [collect_of_ok next, walked]
    rfl

theorem consumes_of_collect {bytes : Bytes} {w : Walk} (on : w.reader.On bytes)
    (sound : (collect w).fault = none)
    (plain : ∀ item ∈ (collect w).items, ¬ item.NegativeZero bytes) :
    w.reader.Consumes ((collect w).instructions.flatMap Instruction.encode)
      (collect w).rest.reader := by
  induction w using Walk.induction with
  | ended w next =>
    rw [collect_of_none next]
    exact Reader.consumes_nil_iff.mpr rfl
  | fault w e w' next =>
    rw [collect_of_error next] at sound
    cases sound
  | item w i w' next ih =>
    obtain ⟨-, -, r, read, rfl⟩ := next?_eq_ok_iff.mp next
    obtain ⟨encodable, spelled⟩ := Instruction.read_eq_ok_iff_consumes.mp read
    rw [collect_of_ok next] at sound plain ⊢
    have here := plain ⟨w.position, i⟩ List.mem_cons_self
    have first : w.reader.Consumes i.encode r := by
      rcases spelled with canonical | ⟨zero, negative⟩
      · exact canonical
      · obtain ⟨s, opening, byte⟩ := negative.split
        have word := UInt64.toNat_ofNat_of_lt' encodable.word_lt
        have there : (⟨w.position, bytes.drop w.position⟩ : Reader) = w.reader := by
          rw [Walk.position, ← on.rest]
        refine absurd ⟨by simp only [zero, Option.isSome_some], UInt64.ofNat i.word, s, ?_, ?_⟩ here
        · rw [there, Number.readWord_eq_ok_iff, word]
          exact opening
        · rw [byte.rest]
          rfl
    have others := ih (first.on on) sound fun item mem => plain item (List.mem_cons_of_mem _ mem)
    exact first.trans others

/-- A walk yields encodable instructions only, also before a fault. -/
theorem encodable_of_mem_collect {w : Walk} {i : Instruction}
    (mem : i ∈ (collect w).instructions) : i.Encodable := by
  induction w using Walk.induction with
  | ended w next =>
    rw [collect_of_none next] at mem
    cases mem
  | fault w e w' next =>
    rw [collect_of_error next] at mem
    cases mem
  | item w j w' next ih =>
    rw [collect_of_ok next] at mem
    rcases List.mem_cons.mp mem with rfl | later
    · obtain ⟨-, -, r, read, -⟩ := next?_eq_ok_iff.mp next
      exact (Instruction.read_eq_ok_iff_consumes.mp read).1
    · exact ih later

end Walk

end Stream

end BeatPatch
