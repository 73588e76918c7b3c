/-!
# Results in several steps

A computation that may fail succeeds if each of its steps does. What every step keeps is kept by
all of them, and steps that succeed alike succeed alike in sequence, whatever their failures are.
-/

namespace Except

variable {ε α β σ : Type}

theorem bind_eq_ok_iff {x : Except ε α} {f : α → Except ε β} {b : β} :
    x >>= f = .ok b ↔ ∃ a, x = .ok a ∧ f a = .ok b := by
  cases x with
  | ok a => exact ⟨fun h => ⟨a, rfl, h⟩, by rintro ⟨_, ⟨⟩, h⟩; exact h⟩
  | error e => exact ⟨nofun, by rintro ⟨_, ⟨⟩, _⟩⟩

/-- What every step keeps holds at the end. -/
theorem of_foldlM {P : σ → Prop} {f : σ → α → Except ε σ}
    (step : ∀ s a t, P s → f s a = .ok t → P t) {as : List α} {s t : σ} (start : P s)
    (ends : as.foldlM f s = .ok t) : P t := by
  induction as generalizing s with
  | nil => cases ends; exact start
  | cons a as ih =>
    rw [List.foldlM_cons, bind_eq_ok_iff] at ends
    obtain ⟨u, first, rest⟩ := ends
    exact ih (step s a u start first) rest

/-- Steps that succeed alike take the same way to the end. -/
theorem foldlM_eq_ok_congr {f g : σ → α → Except ε σ}
    (same : ∀ s a t, f s a = .ok t ↔ g s a = .ok t) (as : List α) (s t : σ) :
    as.foldlM f s = .ok t ↔ as.foldlM g s = .ok t := by
  induction as generalizing s with
  | nil => rfl
  | cons a as ih => simp only [List.foldlM_cons, bind_eq_ok_iff, same, ih]

/-- Steps that fail end at the first that does. -/
theorem exists_of_foldlM_eq_error {f : σ → α → Except ε σ} {as : List α} {s : σ} {e : ε}
    (failed : as.foldlM f s = .error e) :
    ∃ before a after t, as = before ++ a :: after ∧ before.foldlM f s = .ok t ∧
      f t a = .error e := by
  induction as generalizing s with
  | nil => cases failed
  | cons a as ih =>
    rw [List.foldlM_cons] at failed
    cases first : f s a with
    | error cause =>
      rw [first] at failed
      cases failed
      exact ⟨[], a, as, s, rfl, rfl, first⟩
    | ok u =>
      rw [first] at failed
      obtain ⟨before, b, after, t, rfl, reached, stops⟩ := ih failed
      refine ⟨a :: before, b, after, t, rfl, ?_, stops⟩
      rw [List.foldlM_cons, first]
      exact reached

end Except
