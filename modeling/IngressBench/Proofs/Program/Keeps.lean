import IngressBench.Proofs.Program.Leaves

/-!
What steps keep of a state. `m.Keeps R` says that the state after the step `m` is related by `R` to
the state before it, however the step ends. A relation that holds of every state with itself, and
composes, is kept by a row of steps each of which keeps it.
-/
namespace IngressBench.Keeping

variable {τ σ α β : Type} {R : σ → σ → Prop}

/-- The state after the step is related to the state before it. -/
def Keeps (R : σ → σ → Prop) (m : Keeping σ τ α) : Prop :=
  ∀ s evs r s', m.Leaves s evs r s' → R s s'

theorem keeps_bind {m : Keeping σ τ α} {f : α → Keeping σ τ β}
    (htrans : ∀ {a b c}, R a b → R b c → R a c) (hm : m.Keeps R) (hf : ∀ v, (f v).Keeps R) :
    Keeps R (m >>= f) := by
  intro s evs r s' h
  rcases leaves_bind.mp h with ⟨x, hx, -⟩ | ⟨v, s₁, first, rest, hv, hr, -⟩
  · exact hm _ _ _ _ hx
  · exact htrans (hm _ _ _ _ hv) (hf v _ _ _ _ hr)

theorem keeps_pure (hrefl : ∀ s, R s s) (v : α) : Keeps R (pure v : Keeping σ τ α) := by
  intro s evs r s' h
  obtain ⟨-, -, rfl⟩ := leaves_pure.mp h
  exact hrefl _

theorem keeps_get (hrefl : ∀ s, R s s) : Keeps R (get : Keeping σ τ σ) := by
  intro s evs r s' h
  obtain ⟨-, -, rfl⟩ := leaves_get.mp h
  exact hrefl _

theorem keeps_modify {f : σ → σ} (hf : ∀ s, R s (f s)) :
    Keeps R (modify f : Keeping σ τ PUnit) := by
  intro s evs r s' h
  obtain ⟨-, -, rfl⟩ := leaves_modify.mp h
  exact hf _

theorem keeps_lift (hrefl : ∀ s, R s s) (a : Action τ α) : Keeps R (lift a) := by
  intro s evs r s' h
  obtain ⟨-, rfl⟩ := leaves_lift.mp h
  exact hrefl _

end IngressBench.Keeping
