import BeatPatch.Bytes
import BeatPatch.PatchError

/-!
# Reading a patch from front to back

A `Reader` holds the bytes that are still to come and how many came before them. A
`Reading` consumes bytes from it; a failed one leaves the reader where it stopped, because
that position can be asked for.
-/

namespace BeatPatch

/-- The rest of a patch and the offset at which it starts. -/
structure Reader where
  offset : Nat
  rest : Bytes
deriving DecidableEq, Repr

/-- A reader at the start of a patch. -/
def Reader.start (patch : Bytes) : Reader := ⟨0, patch⟩

/-- The second reader is `taken` further on the same bytes. -/
structure Reader.Consumes (r : Reader) (taken : Bytes) (r' : Reader) : Prop where
  rest : r.rest = taken ++ r'.rest
  offset : r'.offset = r.offset + taken.length

/-- The reader stands in these bytes or at their end. -/
structure Reader.On (r : Reader) (bytes : Bytes) : Prop where
  inside : r.offset ≤ bytes.length
  rest : r.rest = bytes.drop r.offset

/-- An action on a reader that may fail. -/
abbrev Reading := EStateM PatchError Reader

/-- The four bytes that open every patch, `BPS1`. -/
def signature : Bytes := [0x42, 0x50, 0x53, 0x31]

/-- Consumes the signature. -/
def readSignature : Reading Unit := fun r =>
  if r.rest.take signature.length = signature then
    .ok () ⟨r.offset + signature.length, r.rest.drop signature.length⟩
  else .error .malformed r

/-- Takes the next `n` bytes, or none if fewer are left. -/
def readBytes (n : Nat) : Reading Bytes := fun r =>
  let taken := r.rest.take n
  if taken.length = n then .ok taken ⟨r.offset + n, r.rest.drop n⟩
  else .error (.outside .patch r.offset n) r

namespace Reading

variable {α β : Type} {r r' : Reader}

theorem bind_of_ok {x : Reading α} {a : α} (h : x r = .ok a r') (f : α → Reading β) :
    (x >>= f) r = f a r' := by
  simp only [bind, EStateM.bind, h]

theorem bind_of_error {x : Reading α} {e : PatchError} (h : x r = .error e r')
    (f : α → Reading β) : (x >>= f) r = .error e r' := by
  simp only [bind, EStateM.bind, h]

theorem map_of_ok {x : Reading α} {a : α} (h : x r = .ok a r') (f : α → β) :
    (f <$> x) r = .ok (f a) r' := by
  simp only [Functor.map, EStateM.map, h]

theorem map_of_error {x : Reading α} {e : PatchError} (h : x r = .error e r') (f : α → β) :
    (f <$> x) r = .error e r' := by
  simp only [Functor.map, EStateM.map, h]

/-- A reading in two steps succeeds if both do. -/
theorem bind_eq_ok_iff {x : Reading α} {f : α → Reading β} {b : β} :
    (x >>= f) r = .ok b r' ↔ ∃ a s, x r = .ok a s ∧ f a s = .ok b r' := by
  constructor
  · intro h
    cases e : x r with
    | ok a s => exact ⟨a, s, rfl, (bind_of_ok e f).symm.trans h⟩
    | error cause s => rw [bind_of_error e f] at h; cases h
  · rintro ⟨a, s, first, second⟩
    exact (bind_of_ok first f).trans second

theorem map_eq_ok_iff {x : Reading α} {f : α → β} {b : β} :
    (f <$> x) r = .ok b r' ↔ ∃ a, x r = .ok a r' ∧ f a = b := by
  constructor
  · intro h
    cases e : x r with
    | ok a s => rw [map_of_ok e f] at h; cases h; exact ⟨a, rfl, rfl⟩
    | error cause s => rw [map_of_error e f] at h; cases h
  · rintro ⟨a, read, rfl⟩
    exact map_of_ok read f

theorem pure_eq_ok_iff {a b : α} : (pure a : Reading α) r = .ok b r' ↔ a = b ∧ r = r' := by
  simp only [pure, EStateM.pure, EStateM.Result.ok.injEq]

/-- A reading behind a refusal succeeds if nothing was refused. -/
theorem unless_eq_ok_iff {c : Prop} [Decidable c] {e : PatchError} {x : Reading α} {a : α}
    {f : Unit → Reading α} :
    (if c then throw e >>= f else x) r = .ok a r' ↔ ¬ c ∧ x r = .ok a r' := by
  by_cases refused : c
  · rw [if_pos refused]
    exact ⟨nofun, fun h => absurd refused h.1⟩
  · rw [if_neg refused]
    exact (and_iff_right refused).symm

theorem ofExcept_eq_ok_iff {x : Except PatchError α} {a : α} :
    (MonadExcept.ofExcept x : Reading α) r = .ok a r' ↔ x = .ok a ∧ r = r' := by
  cases x with
  | ok b => simp [MonadExcept.ofExcept, pure, EStateM.pure]
  | error e => exact ⟨nofun, nofun⟩

end Reading

namespace Reader

theorem Consumes.trans {r s t : Reader} {a b : Bytes} (first : r.Consumes a s)
    (second : s.Consumes b t) : r.Consumes (a ++ b) t :=
  ⟨by rw [first.rest, second.rest, List.append_assoc],
    by rw [second.offset, first.offset, List.length_append, Nat.add_assoc]⟩

/-- What is taken in two parts passes a reader in between. -/
theorem Consumes.split {r t : Reader} {a b : Bytes} (whole : r.Consumes (a ++ b) t) :
    ∃ s, r.Consumes a s ∧ s.Consumes b t := by
  refine ⟨⟨r.offset + a.length, b ++ t.rest⟩, ⟨?_, rfl⟩, ⟨rfl, ?_⟩⟩
  · rw [whole.rest, List.append_assoc]
  · rw [whole.offset, List.length_append, Nat.add_assoc]

theorem consumes_append_iff {r t : Reader} {a b : Bytes} :
    r.Consumes (a ++ b) t ↔ ∃ s, r.Consumes a s ∧ s.Consumes b t :=
  ⟨Consumes.split, fun ⟨_, first, second⟩ => first.trans second⟩

@[simp] theorem consumes_nil_iff {r t : Reader} : r.Consumes [] t ↔ t = r := by
  constructor
  · intro h
    obtain ⟨rest, offset⟩ := h
    cases r; cases t
    simp_all
  · rintro rfl
    exact ⟨rfl, rfl⟩

theorem on_start (bytes : Bytes) : (start bytes).On bytes := ⟨Nat.zero_le _, rfl⟩

theorem Consumes.on {r r' : Reader} {taken bytes : Bytes} (step : r.Consumes taken r')
    (on : r.On bytes) : r'.On bytes := by
  have whole : taken ++ r'.rest = bytes.drop r.offset := step.rest.symm.trans on.rest
  have size := congrArg List.length whole
  have inside := on.inside
  rw [List.length_append, List.length_drop] at size
  refine ⟨by rw [step.offset]; omega, ?_⟩
  rw [step.offset, ← List.drop_drop, ← whole, List.drop_left]

end Reader

theorem readBytes_of_le {r : Reader} {n : Nat} (h : n ≤ r.rest.length) :
    readBytes n r = .ok (r.rest.take n) ⟨r.offset + n, r.rest.drop n⟩ := by
  simp [readBytes, Nat.min_eq_left h]

theorem readBytes_of_lt {r : Reader} {n : Nat} (h : r.rest.length < n) :
    readBytes n r = .error (.outside .patch r.offset n) r := by
  simp only [readBytes, List.length_take]
  rw [if_neg (by omega)]

theorem readBytes_eq_ok_iff {r r' : Reader} {n : Nat} {data : Bytes} :
    readBytes n r = .ok data r' ↔ data.length = n ∧ r.Consumes data r' := by
  constructor
  · intro h
    by_cases enough : n ≤ r.rest.length
    · rw [readBytes_of_le enough] at h
      cases h
      have size : (r.rest.take n).length = n := List.length_take_of_le enough
      exact ⟨size, (List.take_append_drop n r.rest).symm, by rw [size]⟩
    · rw [readBytes_of_lt (Nat.lt_of_not_le enough)] at h
      cases h
  · rintro ⟨rfl, rest, offset⟩
    rw [readBytes_of_le (by rw [rest, List.length_append]; omega), rest, List.take_left,
      List.drop_left, ← offset]

theorem readSignature_eq_ok_iff {r r' : Reader} {u : Unit} :
    readSignature r = .ok u r' ↔ r.Consumes signature r' := by
  constructor
  · intro h
    by_cases opens : r.rest.take signature.length = signature
    · rw [readSignature, if_pos opens] at h
      cases h
      have whole := List.take_append_drop signature.length r.rest
      rw [opens] at whole
      exact ⟨whole.symm, rfl⟩
    · rw [readSignature, if_neg opens] at h
      cases h
  · rintro ⟨rest, offset⟩
    rw [readSignature, if_pos (by rw [rest, List.take_left]), rest, List.drop_left, ← offset]

end BeatPatch
