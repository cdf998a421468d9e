import IngressBench.Proofs.Program.Leaves
import IngressBench.Wait

/-!
The stop of a run. A run that is stopped stays so (`World.run_stopped`), and only a stopped run has
pauses that were cut short (`World.run_honest`). A wait that is begun in a stopped run looks once at
most, and lets no time pass (`watch_stopped`, `waitUntil_stopped`).
-/
namespace IngressBench

variable {τ σ α β : Type} [TimeScale τ]

/-! ### Histories -/

omit [TimeScale τ] in
/-- A history in which a pause was cut short is one of a stopped run. -/
def History.Honest (h : History τ σ) : Prop :=
  .stopped ∈ h.events → h.stopped = true

/-- A history and a later one between which nothing happened, but for a pause that was cut short. -/
def History.Rests (h h' : History τ σ) : Prop :=
  h' = h ∨ h' = { h with events := .stopped :: h.events }

namespace World

variable {w : World τ σ} {h h' : History τ σ}

/-- A run is stopped once. -/
theorem stopWithin_stopped (hs : h.stopped = true) (time : τ) : w.stopWithin time h = h := by
  unfold stopWithin
  split
  · simp [hs]
  · rfl

/-- Nothing happens to a run that is not stopped. -/
theorem stopWithin_running {time : τ} (hs : (w.stopWithin time h).stopped = false) :
    w.stopWithin time h = h := by
  unfold stopWithin at hs ⊢
  split at hs
  · split at hs
    · cases hs
    · rename_i hlate
      simp [hlate]
  · rfl

/-- In a stopped run a pause is cut short. -/
theorem reply_pause_stopped (hs : h.stopped = true) (time : τ) :
    w.reply (.pause time) h = (true, { h with events := .stopped :: h.events }) := by
  show (if (w.stopWithin time h).stopped then _ else _) = _
  rw [stopWithin_stopped hs, if_pos hs]
  rfl

theorem reply_stopped (c : Call τ) (hs : h.stopped = true) : (w.reply c h).2.stopped = true := by
  cases c with
  | pause time => rw [reply_pause_stopped hs, hs]
  | _ => exact hs

/-- **A stopped run stays stopped.** -/
theorem run_stopped (p : Program τ α) (hs : h.stopped = true) : (w.run p h).2.stopped = true := by
  induction p generalizing h with
  | done a => exact hs
  | call c next ih => exact ih _ (reply_stopped c hs)

theorem stopWithin_honest (hh : h.Honest) (time : τ) : (w.stopWithin time h).Honest := by
  unfold stopWithin
  split
  · split
    · exact fun _ => rfl
    · exact hh
  · exact hh

theorem reply_honest (c : Call τ) (hh : h.Honest) : (w.reply c h).2.Honest := by
  cases c with
  | clock => exact hh
  | sleep time => exact fun hmem => hh (by simpa [reply, slept] using hmem)
  | log level text => exact fun hmem => hh (by simpa [reply] using hmem)
  | ask q => exact fun hmem => hh (by simpa [reply] using hmem)
  | pause time =>
    have hwithin := w.stopWithin_honest hh time
    cases hs : (w.stopWithin time h).stopped with
    | true =>
      intro _
      simp [reply, hs]
    | false =>
      intro hmem
      rw [← hwithin (by simpa [reply, hs, slept] using hmem)]
      simp [reply, hs, slept]

/-- **Only a stopped run has pauses that were cut short.** -/
theorem run_honest (p : Program τ α) (hh : h.Honest) : (w.run p h).2.Honest := by
  induction p generalizing h with
  | done a => exact hh
  | call c next ih => exact ih _ (reply_honest c hh)

/-! ### Steps in a world -/

/-- After a step that ends well the rest is begun where that step ended. -/
theorem run_step_ok {a : Action τ α} {f : α → Action τ β} {v : α}
    (ha : w.run a.run h = (.ok v, h')) : w.run (a >>= f).run h = w.run (f v).run h' := by
  rw [Action.bind_run, run_bind, ha]

/-- A step that fails ends what begins with it. -/
theorem run_step_error {a : Action τ α} {f : α → Action τ β} {x : Failure}
    (ha : w.run a.run h = (.error x, h')) : w.run (a >>= f).run h = (.error x, h') := by
  rw [Action.bind_run, run_bind, ha]
  rfl

/-- After a step that keeps a state and ends well the rest is begun where that step ended. -/
theorem run_perform_ok {ρ : Type} {m : Keeping ρ τ α} {f : α → Keeping ρ τ β} {s s' : ρ} {v : α}
    (hm : w.run (m.perform s) h = ((.ok v, s'), h')) :
    w.run ((m >>= f).perform s) h = w.run ((f v).perform s') h' := by
  rw [Keeping.perform_bind, run_bind, hm]

/-- A step that keeps a state and fails ends what begins with it. -/
theorem run_perform_error {ρ : Type} {m : Keeping ρ τ α} {f : α → Keeping ρ τ β} {s s' : ρ}
    {x : Failure} (hm : w.run (m.perform s) h = ((.error x, s'), h')) :
    w.run ((m >>= f).perform s) h = ((.error x, s'), h') := by
  rw [Keeping.perform_bind, run_bind, hm]
  rfl

/-- A step that does not touch the state ends with the state it began with. -/
theorem run_lift {ρ : Type} {a : Action τ α} {r : Except Failure α} (s : ρ)
    (ha : w.run a.run h = (r, h')) : w.run ((Keeping.lift a).perform s) h = ((r, s), h') := by
  have hperform : (Keeping.lift a).perform s = a.run.bind fun r => .done (r, s) := rfl
  rw [hperform, run_bind, ha]
  rfl

theorem run_discard_ok {ρ : Type} {m : Keeping ρ τ α} {s s' : ρ} {v : α}
    (hm : w.run (m.perform s) h = ((.ok v, s'), h')) :
    w.run ((discard m).perform s) h = ((.ok ⟨⟩, s'), h') := by
  rw [show (discard m : Keeping ρ τ PUnit) = m >>= fun _ => pure ⟨⟩ from (map_eq_pure_bind _ m),
    run_perform_ok hm]
  rfl

/-- A pause is over with the reply of the world. -/
theorem run_pause (w : World τ σ) (time : τ) (h : History τ σ) :
    w.run (Action.pause time).run h =
      (.ok (w.reply (.pause time) h).1, (w.reply (.pause time) h).2) := rfl

/-- A history and a line of the log. -/
def logged (level : Level) (text : String) (h : History τ σ) : History τ σ :=
  { h with events := .logged level text :: h.events }

theorem run_log_bind (w : World τ σ) (level : Level) (text : String) (f : Unit → Action τ α)
    (h : History τ σ) :
    w.run (Action.log level text >>= f).run h = w.run (f ()).run (logged level text h) :=
  run_step_ok rfl

/-- A step whose value is changed ends as the step does. -/
theorem run_map (w : World τ σ) (f : α → β) (a : Action τ α) (h : History τ σ) :
    w.run (f <$> a).run h = ((w.run a.run h).1.map f, (w.run a.run h).2) := by
  rw [map_eq_pure_bind]
  rcases ha : w.run a.run h with ⟨⟨x⟩ | ⟨v⟩, h'⟩
  · rw [run_step_error ha]
    rfl
  · rw [run_step_ok ha]
    rfl

/-- A step that is attempted hands on what it ends with. -/
theorem run_attempt {a : Action τ α} {e : Except Failure α} (ha : w.run a.run h = (e, h')) :
    w.run (Action.attempt a).run h = (.ok e, h') := by
  have hrun : (Action.attempt a).run = a.run.bind fun e => .done (.ok e) := rfl
  rw [hrun, run_bind, ha]
  rfl

end World

/-! ### Waits -/

variable {w : World τ σ} {h : History τ σ} {pace : Pace τ}

/-- A rest in a stopped run is cut short at once. -/
theorem Pace.rest_stopped (hpace : pace.stoppable = true) (hs : h.stopped = true) (time : τ) :
    w.run (pace.rest time).run h = (.ok true, { h with events := .stopped :: h.events }) := by
  unfold Pace.rest
  rw [if_pos hpace, World.run_pause, World.reply_pause_stopped hs]

/-- A look of a stopped run is its last one. -/
theorem watchLoop_stopped (hpace : pace.stoppable = true) (hs : h.stopped = true)
    (timeout deadline : τ) (look : Action τ (β × Bool)) (budget : Nat) :
    (w.run look.run h).2.Rests (w.run (watchLoop pace timeout deadline look budget).run h).2 := by
  -- The stop outlives the look, so that a rest after it is cut short.
  have hstays : (w.run look.run h).2.stopped = true := World.run_stopped _ hs
  rcases hlook : w.run look.run h with ⟨⟨x⟩ | ⟨seen, enough⟩, h'⟩
  · cases budget with
    | zero => exact .inl (congrArg Prod.snd (World.run_step_error hlook))
    | succ budget => exact .inl (congrArg Prod.snd (World.run_step_error hlook))
  rw [hlook] at hstays
  cases budget with
  | zero => exact .inl (congrArg Prod.snd (World.run_step_ok hlook))
  | succ budget =>
    unfold watchLoop
    rw [World.run_step_ok hlook]
    cases enough with
    | true => exact .inl rfl
    | false =>
      have hclock : w.run Action.clock.run h' = (.ok h'.now, h') := rfl
      simp only [Bool.false_eq_true, if_false]
      rw [World.run_step_ok hclock]
      split
      · exact .inl rfl
      · rw [World.run_step_ok (Pace.rest_stopped hpace hstays _)]
        exact .inr rfl

/-- **A wait in a stopped run looks once**, and lets no time pass. -/
theorem watch_stopped (hpace : pace.stoppable = true) (hs : h.stopped = true) (timeout : τ)
    (look : Action τ (β × Bool)) :
    (w.run look.run h).2.Rests (w.run (watch pace timeout look).run h).2 := by
  have hclock : w.run Action.clock.run h = (.ok h.now, h) := rfl
  unfold watch
  rw [World.run_step_ok hclock]
  exact watchLoop_stopped hpace hs _ _ look _

/-- A look for a condition is one check of it. -/
theorem run_look (condition : Action τ Bool) :
    (w.run (do return ((), ← condition) : Action τ (Unit × Bool)).run h).2 =
      (w.run condition.run h).2 := by
  rcases hcheck : w.run condition.run h with ⟨⟨x⟩ | ⟨enough⟩, h'⟩
  · exact congrArg Prod.snd (World.run_step_error hcheck)
  · exact congrArg Prod.snd (World.run_step_ok hcheck)

/-- **So does a wait for a condition**, if its first check comes at once; otherwise it checks
nothing. -/
theorem waitUntil_stopped (hpace : pace.stoppable = true) (hs : h.stopped = true) (timeout : τ)
    (condition : Action τ Bool) (immediate : Bool) :
    (if immediate then (w.run condition.run h).2 else h).Rests
      (w.run (waitUntil pace timeout condition immediate).run h).2 := by
  have hclock : w.run Action.clock.run h = (.ok h.now, h) := rfl
  unfold waitUntil
  rw [World.run_step_ok hclock]
  cases immediate with
  | false =>
    simp only [Bool.not_false, if_true, Bool.false_eq_true, if_false]
    rw [World.run_step_ok (Pace.rest_stopped hpace hs _)]
    exact .inr rfl
  | true =>
    simp only [Bool.not_true, Bool.false_eq_true, if_false, if_true]
    have hloop := watchLoop_stopped (w := w) hpace hs timeout (TimeScale.add h.now timeout)
      (do return ((), ← condition)) (TimeScale.rounds pace.interval timeout)
    rw [run_look] at hloop
    rcases hwait : w.run (watchLoop pace timeout (TimeScale.add h.now timeout)
      (do return ((), ← condition)) (TimeScale.rounds pace.interval timeout)).run h with
      ⟨⟨x⟩ | ⟨⟨⟩, fault⟩, h'⟩
    · rw [hwait] at hloop
      rw [World.run_step_error hwait]
      exact hloop
    · rw [hwait] at hloop
      rw [World.run_step_ok hwait]
      cases fault with
      | none => exact hloop
      | some fault => exact hloop

end IngressBench
