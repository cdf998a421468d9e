/-!
Computations that can fail, taken apart: how a step and what comes after it end.
-/
namespace IngressBench

variable {ε α β : Type} {e : Except ε α} {f : α → Except ε β} {g : α → β} {b : β} {x : ε}

theorem bind_eq_of_ok {a : α} {r : Except ε β} (he : e = .ok a) (hf : f a = r) : e >>= f = r := by
  rw [he]
  exact hf

theorem bind_eq_ok_iff : e >>= f = .ok b ↔ ∃ a, e = .ok a ∧ f a = .ok b := by
  constructor
  · intro h
    cases e with
    | error x => cases h
    | ok a => exact ⟨a, rfl, h⟩
  · rintro ⟨a, rfl, h⟩
    exact h

theorem bind_eq_error_iff :
    e >>= f = .error x ↔ e = .error x ∨ ∃ a, e = .ok a ∧ f a = .error x := by
  constructor
  · intro h
    cases e with
    | error y =>
      cases h
      exact .inl rfl
    | ok a => exact .inr ⟨a, rfl, h⟩
  · rintro (rfl | ⟨a, rfl, h⟩)
    · rfl
    · exact h

/-- A failure that no step ends with is no failure of the whole. -/
theorem bind_ne_error (he : e ≠ .error x) (hf : ∀ a, f a ≠ .error x) : e >>= f ≠ .error x := by
  intro h
  rcases bind_eq_error_iff.mp h with hx | ⟨a, -, hx⟩
  · exact he hx
  · exact hf a hx

theorem map_eq_ok_iff : e.map g = .ok b ↔ ∃ a, e = .ok a ∧ g a = b := by
  cases e <;> simp [Except.map]

theorem mapError_eq_error_iff {ε' : Type} {f : ε → ε'} {y : ε'} :
    e.mapError f = .error y ↔ ∃ x, e = .error x ∧ f x = y := by
  constructor
  · intro h
    cases e with
    | error x => exact ⟨x, rfl, Except.error.inj h⟩
    | ok a => cases h
  · rintro ⟨x, rfl, rfl⟩
    rfl

theorem map_eq_error_iff : e.map g = .error x ↔ e = .error x := by
  cases e <;> simp [Except.map]

end IngressBench
