import IngressBench.Proofs.Program.Only
import IngressBench.Proofs.Program.Standing
import IngressBench.Wait

/-!
What a wait leaves: looks that do not see enough, each with a rest after it, and one last look that
sees enough, fails, comes too late, or is followed by the stop of the run (`watchLoop_leaves`).
-/
namespace IngressBench

variable {τ β : Type} [TimeScale τ]

/-- Looks that did not see enough, each followed by a rest that was not cut short. -/
inductive Polls (look : Action τ (β × Bool)) : List (Event τ) → Prop where
  | none : Polls look []
  | more {evs rest : List (Event τ)} {seen : β} (time : τ) :
      look.Leaves evs (.ok (seen, false)) → Polls look rest →
        Polls look (evs ++ .slept time :: rest)

/-- The last look of a wait, and what the wait ends with. -/
inductive LastLook (pace : Pace τ) (timeout : τ) (look : Action τ (β × Bool)) :
    List (Event τ) → Except Failure (β × Option WaitFault) → Prop where
  | enough {evs seen} : look.Leaves evs (.ok (seen, true)) →
      LastLook pace timeout look evs (.ok (seen, none))
  | late {evs seen} : look.Leaves evs (.ok (seen, false)) →
      LastLook pace timeout look evs (.ok (seen, some (timedOut timeout)))
  | cancelled {evs seen} (notice : List (Level × String)) : pace.stoppable = true →
      look.Leaves evs (.ok (seen, false)) →
      LastLook pace timeout look
        (evs ++ (notice.map (fun (l, t) => Event.logged l t) ++ [.stopped]))
        (.ok (seen, some .cancelled))
  | failed {evs x} : look.Leaves evs (.error x) → LastLook pace timeout look evs (.error x)

omit [TimeScale τ] in
/-- A rest is a pause or a sleep; only a pause can be cut short. -/
theorem Pace.rest_leaves {pace : Pace τ} {time : τ} {evs : List (Event τ)}
    {r : Except Failure Bool} (h : (pace.rest time).Leaves evs r) :
    (evs = [.slept time] ∧ r = .ok false) ∨
      (pace.stoppable = true ∧ r = .ok true ∧ ∃ notice : List (Level × String),
        evs = notice.map (fun (l, t) => Event.logged l t) ++ [.stopped]) := by
  unfold Pace.rest at h
  cases hs : pace.stoppable with
  | true =>
    rw [hs, if_pos rfl] at h
    obtain ⟨stopped, hm, rfl⟩ := Action.leaves_perform.mp h
    cases stopped with
    | false => exact .inl ⟨hm, rfl⟩
    | true => exact .inr ⟨rfl, rfl, hm⟩
  | false =>
    rw [hs, if_neg Bool.false_ne_true] at h
    rcases Action.leaves_bind.mp h with ⟨_, hx, -⟩ | ⟨_, _, _, ha, hb, rfl⟩
    · cases (Action.leaves_sleep.mp hx).2
    · obtain ⟨rfl, -⟩ := Action.leaves_sleep.mp ha
      obtain ⟨rfl, rfl⟩ := Action.leaves_pure.mp hb
      exact .inl ⟨rfl, rfl⟩

/-- **A wait is a row of polls and a last look**, whatever its budget of looks. -/
theorem watchLoop_leaves {pace : Pace τ} {timeout deadline : τ} {look : Action τ (β × Bool)}
    {budget : Nat} {evs : List (Event τ)} {r : Except Failure (β × Option WaitFault)}
    (h : (watchLoop pace timeout deadline look budget).Leaves evs r) :
    ∃ polls last, evs = polls ++ last ∧ Polls look polls ∧ LastLook pace timeout look last r := by
  induction budget generalizing evs r with
  | zero =>
    refine ⟨[], evs, rfl, .none, ?_⟩
    rcases Action.leaves_bind.mp h with ⟨x, hx, rfl⟩ | ⟨⟨seen, enough⟩, first, rest, hl, hr, rfl⟩
    · exact .failed hx
    · obtain ⟨rfl, rfl⟩ := Action.leaves_pure.mp hr
      rw [List.append_nil]
      cases enough with
      | true => exact .enough hl
      | false => exact .late hl
  | succ budget ih =>
    rcases Action.leaves_bind.mp h with ⟨x, hx, rfl⟩ | ⟨⟨seen, enough⟩, first, rest, hl, h₁, rfl⟩
    · exact ⟨[], evs, rfl, .none, .failed hx⟩
    cases enough with
    | true =>
      obtain ⟨rfl, rfl⟩ := Action.leaves_pure.mp h₁
      exact ⟨[], first ++ [], rfl, .none, by rw [List.append_nil]; exact .enough hl⟩
    | false =>
      -- The clock leaves no event, so the time that is left decides without a trace.
      obtain ⟨now, h₂⟩ := Action.leaves_clock_bind.mp h₁
      dsimp only at h₂
      split at h₂
      · obtain ⟨rfl, rfl⟩ := Action.leaves_pure.mp h₂
        exact ⟨[], _, rfl, .none, by simpa using LastLook.late hl⟩
      · rcases Action.leaves_bind.mp h₂ with ⟨x, hx, -⟩ | ⟨stopped, rested, rest, hp, h₃, rfl⟩
        · rcases Pace.rest_leaves hx with ⟨-, hx⟩ | ⟨-, hx, -⟩ <;> cases hx
        rcases Pace.rest_leaves hp with ⟨rfl, hs⟩ | ⟨hstop, hs, notice, rfl⟩
        · obtain rfl : stopped = false := Except.ok.inj hs
          obtain ⟨polls, last, rfl, hpolls, hlast⟩ := ih h₃
          have hmore :=
            Polls.more (TimeScale.least pace.interval (TimeScale.sub deadline now)) hl hpolls
          exact ⟨_, last, by simp, hmore, hlast⟩
        · obtain rfl : stopped = true := Except.ok.inj hs
          obtain ⟨rfl, rfl⟩ := Action.leaves_pure.mp h₃
          refine ⟨[], _, rfl, .none, ?_⟩
          simpa using LastLook.cancelled notice hstop hl

/-- A wait begins with its first look. -/
theorem watch_leaves {pace : Pace τ} {timeout : τ} {look : Action τ (β × Bool)}
    {evs : List (Event τ)} {r : Except Failure (β × Option WaitFault)}
    (h : (watch pace timeout look).Leaves evs r) :
    ∃ polls last, evs = polls ++ last ∧ Polls look polls ∧ LastLook pace timeout look last r := by
  obtain ⟨now, hloop⟩ := Action.leaves_clock_bind.mp h
  exact watchLoop_leaves hloop

/-! ### Events of a wait -/

omit [TimeScale τ] in
/-- What holds of the events of a look, and of sleeping, holds of the polls of a wait. -/
theorem Polls.only {P : Event τ → Prop} {look : Action τ (β × Bool)} {evs : List (Event τ)}
    (h : Polls look evs) (hlook : look.Only P) (hslept : ∀ time, P (.slept time)) :
    ∀ e ∈ evs, P e := by
  induction h with
  | none => simp
  | more time hl _ ih =>
    simpa [or_imp, forall_and] using ⟨hlook _ _ hl, hslept time, ih⟩

/-- What also holds of the lines of the log and of a stop holds of a whole wait. -/
theorem only_watch {P : Event τ → Prop} {pace : Pace τ} {timeout : τ}
    {look : Action τ (β × Bool)} (hlook : look.Only P) (hslept : ∀ time, P (.slept time))
    (hline : ∀ level text, P (.logged level text)) (hstop : P .stopped) :
    (watch pace timeout look).Only P := by
  intro evs r h
  obtain ⟨polls, last, rfl, hpolls, hlast⟩ := watch_leaves h
  refine List.forall_mem_append.mpr ⟨hpolls.only hlook hslept, ?_⟩
  cases hlast with
  | enough hl | late hl | failed hl => exact hlook _ _ hl
  | cancelled notice _ hl =>
    have hlines : ∀ e ∈ notice.map (fun (l, t) => Event.logged l t), P e :=
      List.forall_mem_map.mpr fun line _ => hline line.1 line.2
    exact List.forall_mem_append.mpr
      ⟨hlook _ _ hl, List.forall_mem_append.mpr ⟨hlines, List.forall_mem_singleton.mpr hstop⟩⟩

/-- A wait that ends with a fault was cancelled exactly when it was stopped. -/
theorem watch_cancelled_iff {pace : Pace τ} {timeout : τ} {look : Action τ (β × Bool)}
    (hlook : look.Only (· ≠ .stopped)) {evs : List (Event τ)} {seen : β} {fault : WaitFault}
    (h : (watch pace timeout look).Leaves evs (.ok (seen, some fault))) :
    fault.isCancelled = true ↔ .stopped ∈ evs := by
  obtain ⟨polls, last, rfl, hpolls, hlast⟩ := watch_leaves h
  have hpolling : .stopped ∉ polls := fun hmem => hpolls.only hlook (by simp) _ hmem rfl
  cases hlast with
  | late hl =>
    have hlooked : .stopped ∉ last := fun hmem => hlook _ _ hl _ hmem rfl
    simp [hpolling, hlooked, timedOut, WaitFault.isCancelled]
  | cancelled notice _ hl => simp [WaitFault.isCancelled]

/-! ### What a wait asks for -/

variable {P : Question → Prop}

omit [TimeScale τ] in
theorem Pace.asks_rest (pace : Pace τ) (time : τ) : (pace.rest time).Asks P := by
  unfold Pace.rest
  cases pace.stoppable with
  | true => exact Action.asks_pause time
  | false => exact Action.asks_bind (Action.asks_sleep time) fun _ => Action.asks_pure _

/-- A wait asks for what its looks ask for. -/
theorem asks_watchLoop {pace : Pace τ} {timeout deadline : τ} {look : Action τ (β × Bool)}
    (hlook : look.Asks P) (budget : Nat) :
    (watchLoop pace timeout deadline look budget).Asks P := by
  induction budget with
  | zero => exact Action.asks_bind hlook fun _ => Action.asks_pure _
  | succ budget ih =>
    refine Action.asks_bind hlook fun (seen, enough) => ?_
    cases enough with
    | true => exact Action.asks_pure _
    | false =>
      refine Action.asks_bind Action.asks_clock fun now => ?_
      dsimp only
      split
      · exact Action.asks_pure _
      · refine Action.asks_bind (pace.asks_rest _) fun stopped => ?_
        cases stopped with
        | true => exact Action.asks_pure _
        | false => exact ih

theorem asks_watch {pace : Pace τ} {timeout : τ} {look : Action τ (β × Bool)}
    (hlook : look.Asks P) : (watch pace timeout look).Asks P :=
  Action.asks_bind Action.asks_clock fun _ => asks_watchLoop hlook _

theorem asks_waitUntil {pace : Pace τ} {timeout : τ}
    {condition : Action τ Bool} (hcondition : condition.Asks P) :
    (waitUntil pace timeout condition).Asks P := by
  refine Action.asks_bind Action.asks_clock fun _ => ?_
  refine Action.asks_bind (asks_watchLoop ?_ _) fun ((), fault) => ?_
  · exact Action.asks_bind hcondition fun _ => Action.asks_pure _
  · cases fault with
    | none => exact Action.asks_pure _
    | some _ => exact Action.asks_throw _

/-! ### Where a wait leads -/

/-- A look that sees enough ends at the standing `s'`, any other look where it began. -/
def LooksFrom (s s' : Standing) (r : Except Failure (β × Bool)) (t : Standing) : Prop :=
  ∀ seen enough, r = .ok (seen, enough) → t = if enough then s' else s

/-- A wait that ends well ends at the standing `s'`. -/
def WaitsFor (s' : Standing) (r : Except Failure (β × Option WaitFault)) (t : Standing) : Prop :=
  ∀ seen, r = .ok (seen, none) → t = s'

omit [TimeScale τ] in
/-- A rest that is not cut short leaves the standing as it is. -/
theorem Pace.guards_rest (pace : Pace τ) (time : τ) (s : Standing) :
    (pace.rest time).Guards s fun r t => r = .ok false → t = s := by
  intro evs r h
  rcases pace.rest_leaves h with ⟨rfl, rfl⟩ | ⟨-, rfl, notice, rfl⟩
  · exact ⟨⟨fun h => absurd h Bool.false_ne_true, trivial⟩, fun _ => rfl⟩
  · exact ⟨s.guarded_notice notice, fun h => nomatch h⟩

/-- A wait that ends well ends where a look that sees enough ends. -/
theorem guards_watchLoop {pace : Pace τ} {timeout deadline : τ} {look : Action τ (β × Bool)}
    {s s' : Standing} (hlook : look.Guards s (LooksFrom s s')) (budget : Nat) :
    (watchLoop pace timeout deadline look budget).Guards s (WaitsFor s') := by
  induction budget with
  | zero =>
    refine Action.guards_bind hlook (fun x t _ _ h => nomatch h) fun (seen, enough) t ht => ?_
    refine Action.guards_pure fun _ h => ?_
    cases enough with
    | true => exact ht _ _ rfl
    | false => cases h
  | succ budget ih =>
    refine Action.guards_bind hlook (fun x t _ _ h => nomatch h) fun (seen, enough) t ht => ?_
    cases enough with
    | true => exact Action.guards_pure fun _ _ => ht _ _ rfl
    | false =>
      obtain rfl : t = s := ht _ _ rfl
      refine Action.guards_clock_bind fun now => ?_
      dsimp only
      split
      · exact Action.guards_pure fun _ h => nomatch h
      · refine Action.guards_bind (pace.guards_rest _ t) (fun x t _ _ h => nomatch h)
          fun stopped u hu => ?_
        cases stopped with
        | true => exact Action.guards_pure fun _ h => nomatch h
        | false => exact hu rfl ▸ ih

theorem guards_watch {pace : Pace τ} {timeout : τ} {look : Action τ (β × Bool)}
    {s s' : Standing} (hlook : look.Guards s (LooksFrom s s')) :
    (watch pace timeout look).Guards s (WaitsFor s') :=
  Action.guards_clock_bind fun _ => guards_watchLoop hlook _

/-- Waiting for a condition, at once. -/
theorem guards_waitUntil {pace : Pace τ} {timeout : τ} {condition : Action τ Bool}
    {s s' : Standing} (hcondition : condition.Guards s fun r t =>
      ∀ enough, r = .ok enough → t = if enough then s' else s) :
    (waitUntil pace timeout condition).Guards s s'.Well := by
  refine Action.guards_clock_bind fun now => ?_
  have hlook : Action.Guards s (do return ((), ← condition)) (LooksFrom s s') :=
    Action.guards_bind hcondition (fun x t _ _ _ h => nomatch h) fun enough t ht =>
      Action.guards_pure fun _ _ h => by
        obtain ⟨-, rfl⟩ := Prod.mk.inj (Except.ok.inj h)
        exact ht _ rfl
  refine Action.guards_bind (guards_watchLoop hlook _) (fun x t _ => s'.well_error _ _)
    fun ((), fault) t ht => ?_
  cases fault with
  | none => exact Action.guards_pure fun _ _ => ht () rfl
  | some fault => exact Action.guards_throw (s'.well_error _ _)

end IngressBench
