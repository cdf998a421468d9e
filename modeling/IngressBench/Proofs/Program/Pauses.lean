import IngressBench.Proofs.Program.Only

/-!
The pauses of a run. A world tells how long the pauses are that a program begins in it
(`World.pauses`); a pause that the stop of the run cuts short counts with its whole length. A program
whose rows never hold the stop of the run has no pauses (`pauses_of_still`), since a pause can always
be cut short.
-/
namespace IngressBench

variable {τ σ α β : Type} [TimeScale τ]

/-- The pauses that a call begins. -/
def Call.pauses : Call τ → List τ
  | .pause time => [time]
  | _ => []

omit [TimeScale τ] in
/-- An event that is not the stop of the run. -/
def Event.Still : Event τ → Prop
  | .stopped => False
  | _ => True

namespace World

/-- The lengths of the pauses that a program begins in a world. -/
def pauses (w : World τ σ) : Program τ α → History τ σ → List τ
  | .done _, _ => []
  | .call c next, h => c.pauses ++ w.pauses (next (w.reply c h).1) (w.reply c h).2

/-- A program and what comes after it begin their pauses one after the other. -/
theorem pauses_bind (w : World τ σ) (p : Program τ α) (f : α → Program τ β) (h : History τ σ) :
    w.pauses (p.bind f) h = w.pauses p h ++ w.pauses (f (w.run p h).1) (w.run p h).2 := by
  induction p generalizing h with
  | done a => rfl
  | call c next ih =>
    show c.pauses ++ w.pauses ((next (w.reply c h).1).bind f) (w.reply c h).2 = _
    rw [ih, ← List.append_assoc]
    rfl

/-- **A program that cannot be stopped does not pause.** -/
theorem pauses_of_still (w : World τ σ) {p : Program τ α} (hp : p.Only Event.Still)
    (h : History τ σ) : w.pauses p h = [] := by
  induction p generalizing h with
  | done a => rfl
  | call c next ih =>
    obtain ⟨hcall, hnext⟩ := hp.call
    have hnone : c.pauses = [] := by
      cases c with
      | pause time => exact (hcall true _ ⟨[], rfl⟩ .stopped List.mem_cons_self).elim
      | _ => rfl
    show c.pauses ++ _ = []
    rw [hnone, List.nil_append]
    exact ih _ (hnext _) _

variable {w : World τ σ} {h h' : History τ σ} {a : Action τ α} {f : α → Action τ β}

/-- After a step that ends well the pauses of what comes after it follow its own. -/
theorem pauses_step_ok {v : α} (ha : w.run a.run h = (.ok v, h')) :
    w.pauses (a >>= f).run h = w.pauses a.run h ++ w.pauses (f v).run h' := by
  rw [Action.bind_run, pauses_bind, ha]

/-- A step that fails begins the last pauses. -/
theorem pauses_step_error {x : Failure} (ha : w.run a.run h = (.error x, h')) :
    w.pauses (a >>= f).run h = w.pauses a.run h := by
  rw [Action.bind_run, pauses_bind, ha]
  exact List.append_nil _

end World
end IngressBench
