import IngressBench.Proofs.Program.Only

/-!
How steps fail. `a.Fails P` says that every failure that the step `a` can end with satisfies `P`.
`a.EndsAt fatal` says that an event to which `fatal` gives a failure is the last one that `a` leaves,
and that `a` ends with this failure: what such an event tells is neither passed over nor turned into
something else. `a.Outlasts P` says the opposite: a step that leaves an event that satisfies `P` ends
well. The rules below follow the shape of a step.
-/
namespace IngressBench.Action

variable {τ α β : Type}

/-! ### Failures -/

section Fails
variable {P : Failure → Prop}

/-- Every failure of the step satisfies `P`. -/
def Fails (P : Failure → Prop) (a : Action τ α) : Prop :=
  ∀ evs x, a.Leaves evs (.error x) → P x

theorem fails_bind {a : Action τ α} {f : α → Action τ β} (ha : a.Fails P)
    (hf : ∀ evs v, a.Leaves evs (.ok v) → (f v).Fails P) : Fails P (a >>= f) := by
  intro evs x h
  rcases leaves_bind.mp h with ⟨y, hy, hx⟩ | ⟨v, first, rest, hv, hrest, -⟩
  · cases hx
    exact ha _ _ hy
  · exact hf _ v hv _ _ hrest

theorem fails_ofExcept {e : Except Failure α} (h : ∀ x, e = .error x → P x) :
    Fails P (ofExcept e : Action τ α) :=
  fun _ x hl => h x (leaves_ofExcept.mp hl).2.symm

theorem fails_pure (v : α) : Fails P (pure v : Action τ α) :=
  fails_ofExcept nofun

theorem fails_perform (c : Call τ) : Fails P (perform c) := by
  intro evs x h
  obtain ⟨_, _, hx⟩ := leaves_perform.mp h
  cases hx

end Fails

/-! ### Ends -/

section Ends
variable {fatal : Event τ → Option Failure}

/-- An event with a failure is the last one, and the step ends with that failure. -/
def EndsAt (fatal : Event τ → Option Failure) (a : Action τ α) : Prop :=
  ∀ before e after r x, a.Leaves (before ++ e :: after) r → fatal e = some x →
    after = [] ∧ r = .error x

/-- Where nothing is fatal there is nothing to end at. -/
theorem endsAt_of_only {a : Action τ α} (h : a.Only fun e => fatal e = none) : a.EndsAt fatal := by
  intro before e after r x hl he
  have hnone := h _ _ hl e (by simp)
  rw [hnone] at he
  cases he

theorem endsAt_bind {a : Action τ α} {f : α → Action τ β} (ha : a.EndsAt fatal)
    (hf : ∀ evs v, a.Leaves evs (.ok v) → (f v).EndsAt fatal) : EndsAt fatal (a >>= f) := by
  intro before e after r x h he
  rcases leaves_bind.mp h with ⟨y, hy, rfl⟩ | ⟨v, first, rest, hv, hrest, hevs⟩
  · obtain ⟨rfl, hx⟩ := ha _ _ _ _ _ hy he
    exact ⟨rfl, by cases hx; rfl⟩
  rcases append_eq_append_cons hevs.symm with ⟨between, rfl, -⟩ | ⟨between, -, rfl⟩
  · -- The first step would have failed.
    cases (ha _ _ _ _ _ hv he).2
  · exact hf _ v hv _ _ _ _ _ hrest he

/-- A question, and a step that fails when the reply is fatal and else leaves nothing fatal. -/
theorem endsAt_ask_bind {q : Question} {f : q.Reply → Action τ β}
    (hf : ∀ reply time, fatal (.asked q reply time) = none → (f reply).EndsAt fatal)
    (hfatal : ∀ reply time x, fatal (.asked q reply time) = some x → f reply = throw x) :
    EndsAt fatal (ask q >>= f) := by
  intro before e after r x h he
  obtain ⟨reply, time, rest, hrest, hevs⟩ := leaves_ask_bind.mp h
  cases before with
  | nil =>
    obtain ⟨rfl, rfl⟩ := List.cons.inj hevs
    rw [hfatal reply time x he] at hrest
    exact leaves_throw.mp hrest
  | cons e' before =>
    obtain ⟨rfl, rfl⟩ := List.cons.inj hevs
    cases hreply : fatal (.asked q reply time) with
    | none => exact hf reply time hreply _ _ _ _ _ hrest he
    | some y =>
      rw [hfatal reply time y hreply] at hrest
      have hempty : before ++ e :: after = [] := (leaves_throw.mp hrest).1
      simp at hempty

end Ends

/-! ### What a step outlasts -/

section Outlasts
variable {P : Event τ → Prop}

/-- A step that leaves an event that satisfies `P` ends well. -/
def Outlasts (P : Event τ → Prop) (a : Action τ α) : Prop :=
  ∀ evs r, a.Leaves evs r → (∃ e ∈ evs, P e) → ∃ v, r = .ok v

/-- Before such an event, anything may happen. -/
theorem outlasts_after {a : Action τ α} {f : α → Action τ β} (ha : a.Only fun e => ¬ P e)
    (hf : ∀ v, (f v).Outlasts P) : Outlasts P (a >>= f) := by
  intro evs r h hmem
  obtain ⟨e, he, hP⟩ := hmem
  rcases leaves_bind.mp h with ⟨x, hx, -⟩ | ⟨v, first, rest, hv, hrest, rfl⟩
  · exact absurd hP (ha _ _ hx e he)
  rcases List.mem_append.mp he with he | he
  · exact absurd hP (ha _ _ hv e he)
  · exact hf v _ _ hrest ⟨e, he, hP⟩

/-- After such an event, nothing may fail. -/
theorem outlasts_before {a : Action τ α} {f : α → Action τ β} (ha : a.Outlasts P)
    (hf : ∀ v, (f v).Fails fun _ => False) : Outlasts P (a >>= f) := by
  intro evs r h hmem
  rcases leaves_bind.mp h with ⟨x, hx, rfl⟩ | ⟨v, first, rest, hv, hrest, rfl⟩
  · obtain ⟨w, hw⟩ := ha _ _ hx hmem
    cases hw
  · cases r with
    | ok w => exact ⟨w, rfl⟩
    | error x => exact (hf v _ _ hrest).elim

end Outlasts

end IngressBench.Action
