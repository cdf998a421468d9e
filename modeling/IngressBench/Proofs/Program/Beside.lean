import IngressBench.Proofs.Program.Leaves

/-!
Steps beside whose state something is kept that no step reads: a record of what was done, for
instance. Such a step does what the step without the record does (`Shadows`). A step that says nothing
to the record is the step itself with the record beside it (`Keeping.beside`); a step whose end goes
into the record is the step with a note (`Keeping.noting`). Whatever a row of such steps keeps, a world
sees the same questions and gives the same replies (`Shadows.trace_eq`).
-/
namespace IngressBench.Keeping

variable {σ ν τ α β : Type}

/-- A step beside whose state something is kept that it does not touch. -/
def beside (m : Keeping σ τ α) : Keeping (σ × ν) τ α :=
  ofProgram fun (s, kept) => do
    let (outcome, s') ← m.perform s
    return (outcome, (s', kept))

/-- A step beside whose state something is kept that changes with how the step ends. -/
def noting (note : σ → Except Failure α → ν → ν) (m : Keeping σ τ α) : Keeping (σ × ν) τ α :=
  ofProgram fun (s, kept) => do
    let (outcome, s') ← m.perform s
    return (outcome, (s', note s outcome kept))

/-- A step that says nothing is one with a note that changes nothing. -/
theorem beside_eq (m : Keeping σ τ α) :
    (beside m : Keeping (σ × ν) τ α) = noting (fun _ _ kept => kept) m := rfl

/-- Without what is kept beside its state the one step is the other. -/
def Shadows (d : Keeping (σ × ν) τ α) (m : Keeping σ τ α) : Prop :=
  ∀ s kept, ((d.perform (s, kept)).bind fun (outcome, (s', _)) => .done (outcome, s')) = m.perform s

/-! ### Rules -/

theorem shadows_noting (note : σ → Except Failure α → ν → ν) (m : Keeping σ τ α) :
    Shadows (noting note m) m := by
  intro s kept
  have hnoting : (noting note m).perform (s, kept) =
      (m.perform s).bind fun (outcome, s') => .done (outcome, (s', note s outcome kept)) := rfl
  rw [hnoting, Program.bind_assoc]
  exact Program.bind_done _

theorem shadows_beside (m : Keeping σ τ α) : Shadows (beside m : Keeping (σ × ν) τ α) m :=
  beside_eq m ▸ shadows_noting _ m

theorem shadows_pure (v : α) : Shadows (pure v : Keeping (σ × ν) τ α) (pure v) :=
  fun _ _ => rfl

theorem shadows_bind {d : Keeping (σ × ν) τ α} {m : Keeping σ τ α}
    {e : α → Keeping (σ × ν) τ β} {f : α → Keeping σ τ β} (hd : Shadows d m)
    (he : ∀ v, Shadows (e v) (f v)) : Shadows (d >>= e) (m >>= f) := by
  intro s kept
  rw [perform_bind, perform_bind, ← hd s kept, Program.bind_assoc, Program.bind_assoc]
  congr 1
  funext ⟨outcome, s', kept'⟩
  cases outcome with
  | ok v => exact he v s' kept'
  | error x => rfl

theorem shadows_beside_bind {m : Keeping σ τ α} {e : α → Keeping (σ × ν) τ β}
    {f : α → Keeping σ τ β} (he : ∀ v, Shadows (e v) (f v)) :
    Shadows (beside m >>= e) (m >>= f) :=
  shadows_bind (shadows_beside m) he

/-- A step and what comes after it can be lifted one after the other. -/
theorem lift_bind (a : Action τ α) (f : α → Action τ β) :
    (lift (a >>= f) : Keeping σ τ β) = lift a >>= fun v => lift (f v) := by
  refine funext fun s => ?_
  show (lift (a >>= f)).perform s = (lift a >>= fun v => lift (f v)).perform s
  have hlift : ∀ {γ : Type} (b : Action τ γ),
      (lift b : Keeping σ τ γ).perform s = b.run.bind fun e => .done (e, s) := fun _ => rfl
  rw [perform_bind, hlift, hlift, Action.bind_run, Program.bind_assoc, Program.bind_assoc]
  congr 1
  funext e
  cases e <;> rfl

/-- What is kept beside a step and what comes after it is not touched, if neither of them touches
it. -/
theorem bind_eq_beside {d : Keeping (σ × ν) τ α} {m : Keeping σ τ α} {e : α → Keeping (σ × ν) τ β}
    {f : α → Keeping σ τ β} (hd : d = beside m) (he : ∀ v, e v = beside (f v)) :
    d >>= e = beside (m >>= f) := by
  obtain rfl : e = fun v => beside (f v) := funext he
  subst hd
  refine funext fun (s, kept) => ?_
  show (beside m >>= fun v => beside (f v)).perform (s, kept) = (beside (m >>= f)).perform (s, kept)
  have hbeside : ∀ {γ : Type} (b : Keeping σ τ γ), (beside b).perform (s, kept) =
      (b.perform s).bind fun (outcome, s') => .done (outcome, (s', kept)) := fun _ => rfl
  rw [perform_bind, hbeside, hbeside, perform_bind, Program.bind_assoc, Program.bind_assoc]
  congr 1
  funext ⟨outcome, s'⟩
  cases outcome <;> rfl

theorem shadows_lift_bind {a : Action τ α} {e : α → Keeping (σ × ν) τ β} {f : α → Action τ β}
    (he : ∀ v, Shadows (e v) (lift (f v))) : Shadows (beside (lift a) >>= e) (lift (a >>= f)) := by
  rw [lift_bind]
  exact shadows_beside_bind he

/-! ### What is left -/

theorem leaves_noting {note : σ → Except Failure α → ν → ν} {m : Keeping σ τ α} {s s' : σ}
    {kept kept' : ν} {evs : List (Event τ)} {r : Except Failure α} :
    Leaves (noting note m) (s, kept) evs r (s', kept') ↔
      m.Leaves s evs r s' ∧ kept' = note s r kept := by
  have hnoting : (noting note m).perform (s, kept) =
      (m.perform s).bind fun (outcome, s') => .done (outcome, (s', note s outcome kept)) := rfl
  unfold Leaves
  rw [hnoting, Program.leaves_bind]
  constructor
  · intro hl
    obtain ⟨⟨outcome, s₁⟩, first, rest, hm, ⟨rfl, hr⟩, rfl⟩ := hl
    cases hr
    exact ⟨by rwa [List.append_nil], rfl⟩
  · intro hl
    obtain ⟨hm, rfl⟩ := hl
    exact ⟨(r, s'), evs, [], hm, ⟨rfl, rfl⟩, (List.append_nil evs).symm⟩

theorem leaves_beside {m : Keeping σ τ α} {s s' : σ} {kept kept' : ν} {evs : List (Event τ)}
    {r : Except Failure α} :
    Leaves (beside m) (s, kept) evs r (s', kept') ↔ m.Leaves s evs r s' ∧ kept' = kept := by
  rw [beside_eq]
  exact leaves_noting

theorem leaves_beside_bind {m : Keeping σ τ α} {e : α → Keeping (σ × ν) τ β} {s s' : σ}
    {kept kept' : ν} {evs : List (Event τ)} {r : Except Failure β} :
    Leaves (beside m >>= e) (s, kept) evs r (s', kept') ↔
      (∃ x, m.Leaves s evs (.error x) s' ∧ r = .error x ∧ kept' = kept) ∨
        ∃ v s₁ first rest, m.Leaves s first (.ok v) s₁ ∧
          (e v).Leaves (s₁, kept) rest r (s', kept') ∧ evs = first ++ rest := by
  rw [leaves_bind]
  constructor
  · intro hl
    rcases hl with ⟨x, hx, rfl⟩ | ⟨v, ⟨s₁, kept₁⟩, first, rest, hv, hr, rfl⟩
    · obtain ⟨hm, rfl⟩ := leaves_beside.mp hx
      exact .inl ⟨x, hm, rfl, rfl⟩
    · obtain ⟨hm, rfl⟩ := leaves_beside.mp hv
      exact .inr ⟨v, s₁, first, rest, hm, hr, rfl⟩
  · intro hl
    rcases hl with ⟨x, hm, rfl, rfl⟩ | ⟨v, s₁, first, rest, hm, hr, rfl⟩
    · exact .inl ⟨x, leaves_beside.mpr ⟨hm, rfl⟩, rfl⟩
    · exact .inr ⟨v, (s₁, kept), first, rest, leaves_beside.mpr ⟨hm, rfl⟩, hr, rfl⟩

theorem leaves_beside_bind_ok {m : Keeping σ τ α} {e : α → Keeping (σ × ν) τ β} {s s' : σ}
    {kept kept' : ν} {evs : List (Event τ)} {w : β} :
    Leaves (beside m >>= e) (s, kept) evs (.ok w) (s', kept') ↔
      ∃ v s₁ first rest, m.Leaves s first (.ok v) s₁ ∧
        (e v).Leaves (s₁, kept) rest (.ok w) (s', kept') ∧ evs = first ++ rest := by
  rw [leaves_beside_bind]
  refine or_iff_right fun hl => ?_
  obtain ⟨_, -, hr, -⟩ := hl
  cases hr

theorem leaves_beside_log_bind {level : Level} {text : String} {e : Unit → Keeping (σ × ν) τ β}
    {s s' : σ} {kept kept' : ν} {evs : List (Event τ)} {r : Except Failure β} :
    Leaves (beside (lift (Action.log level text)) >>= e) (s, kept) evs r (s', kept') ↔
      ∃ rest, (e ()).Leaves (s, kept) rest r (s', kept') ∧ evs = .logged level text :: rest := by
  rw [leaves_beside_bind]
  constructor
  · intro hl
    rcases hl with ⟨x, hx, -⟩ | ⟨_, s₁, first, rest, hm, hr, rfl⟩
    · cases (Action.leaves_log.mp (leaves_lift.mp hx).1).2
    · obtain ⟨hlog, rfl⟩ := leaves_lift.mp hm
      obtain ⟨rfl, -⟩ := Action.leaves_log.mp hlog
      exact ⟨rest, hr, rfl⟩
  · intro hl
    obtain ⟨rest, hr, rfl⟩ := hl
    exact .inr ⟨(), s, _, rest, leaves_lift.mpr ⟨Action.leaves_log.mpr ⟨rfl, rfl⟩, rfl⟩, hr, rfl⟩

/-- What the one step leaves the other leaves too. -/
theorem Shadows.leaves {d : Keeping (σ × ν) τ α} {m : Keeping σ τ α} (h : Shadows d m) {s s' : σ}
    {kept kept' : ν} {evs : List (Event τ)} {r : Except Failure α}
    (hl : d.Leaves (s, kept) evs r (s', kept')) : m.Leaves s evs r s' := by
  unfold Leaves
  rw [← h s kept]
  exact Program.leaves_bind.mpr ⟨_, evs, [], hl, ⟨rfl, rfl⟩, (List.append_nil evs).symm⟩

/-- In a world too the one step does what the other does: the events are the same, and so are the
outcome and the state. -/
theorem Shadows.trace_eq [TimeScale τ] {ω : Type} {d : Keeping (σ × ν) τ α} {m : Keeping σ τ α}
    (h : Shadows d m) (w : World τ ω) (now : τ) (world : ω) (s : σ) (kept : ν) :
    let run := w.trace now world (d.perform (s, kept))
    w.trace now world (m.perform s) = ((run.1.1, run.1.2.1), run.2) := by
  intro run
  rw [← h s kept]
  unfold World.trace
  rw [World.run_bind]
  rfl

/-- A step that keeps no state does in a world what it does on its own. -/
theorem trace_lift [TimeScale τ] {ω : Type} (w : World τ ω) (now : τ) (world : ω) (a : Action τ α)
    (s : σ) : w.trace now world ((lift a).perform s) =
      (((w.trace now world a.run).1, s), (w.trace now world a.run).2) := by
  have hlift : (lift a).perform s = a.run.bind fun e => .done (e, s) := rfl
  unfold World.trace
  rw [hlift, World.run_bind]
  rfl

end IngressBench.Keeping
