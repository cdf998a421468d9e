import IngressBench.Proofs.Run.Handling
import IngressBench.Proofs.Run.Sample
import IngressBench.Proofs.Run.Signals
import IngressBench.Proofs.Stop

/-!
Cancelled runs. When a pause of a run that measures and tunes by itself is cut short, nothing is left
but a report, and the run fails as cancelled; and it fails as cancelled only when it was stopped. In a
stopped run every wait looks once at most (`start_cancels`).
-/
namespace IngressBench

variable {τ σ : Type}

/-! ### Questions without a driver and a tuner -/

/-- A question to a helper that a run can be given beside its driver and its tuner: for access to the
cluster, for a comparison, or to store documents. -/
def Question.Given : Question → Prop
  | .access _ | .connect _ | .compare .. | .index .. => True
  | _ => False

/-- A question that is not for a driver, a tuner or a condition of the surroundings. -/
def Question.Unaided : Question → Prop
  | .drive .. | .tune _ | .check => False
  | _ => True

/-- Without those only a given helper fails. -/
theorem Event.Raises.given {e : Event τ} {x : Failure} (h : e.Raises x)
    (hunaided : e.Asks Question.Unaided) : e.Asks Question.Given := by
  cases e with
  | asked q r time =>
    cases q with
    | access _ | connect _ | compare _ _ | index _ _ => trivial
    | drive _ _ _ | tune _ | check => exact hunaided.elim
    | _ => cases h
  | _ => trivial

theorem unaided_of_forall {P : Question → Prop} (hdrive : ∀ c m b, ¬ P (.drive c m b))
    (htune : ∀ profile, ¬ P (.tune profile)) (hcheck : ¬ P .check) (q : Question) (hq : P q) :
    q.Unaided := by
  cases q with
  | drive c m b => exact hdrive c m b hq
  | tune profile => exact htune profile hq
  | check => exact hcheck hq
  | _ => trivial

theorem unaided_of_learns : ∀ q, Question.Learns q → q.Unaided :=
  unaided_of_forall (fun _ _ _ h => h) (fun _ h => h) fun h => h

theorem unaided_of_gauges : ∀ q, Question.Gauges q → q.Unaided :=
  unaided_of_forall (fun _ _ _ h => h) (fun _ h => h) fun h => h

theorem unaided_of_stores : ∀ q, Question.Stores q → q.Unaided :=
  unaided_of_forall (fun _ _ _ h => h) (fun _ h => h) fun h => h

theorem unaided_of_creates (objects : List Manifest) :
    ∀ q, Question.Creates objects q → q.Unaided := by
  rintro q ⟨object, -, rfl⟩
  trivial

theorem unaided_of_removes (K : ObjectKind → Prop) : ∀ q, Question.Removes K q → q.Unaided :=
  unaided_of_forall (fun _ _ _ h => h) (fun _ h => h) fun h => h

theorem unaided_of_handles (ns name : String) (q : Question) (h : q.Handles ns name) :
    q.Unaided := by
  rcases h with (rfl | ⟨selector, rfl⟩) | ⟨replicas, rfl⟩ <;> trivial

theorem unaided_of_applies (q : Question) (h : q.Applies) : q.Unaided := by
  rcases h with ⟨options, rfl⟩ | rfl | ⟨selector, rfl⟩ <;> trivial

/-! ### Sound surroundings -/

/-- Whatever these surroundings tell about deployments and pending pods can be judged. -/
def World.Sound (w : World τ σ) : Prop :=
  ∀ q state time, Event.Sound (.asked q (w.answer q state).1 time : Event τ)

theorem World.Sound.run [TimeScale τ] {α : Type} {w : World τ σ} (hw : w.Sound) (p : Program τ α)
    (h : History τ σ) (hfresh : h.events = []) : ∀ e ∈ (w.run p h).2.events.reverse, e.Sound := by
  intro e he
  have hanswered : e.AnsweredIn w :=
    w.run_answered p h (by simp [hfresh]) e (List.mem_reverse.mp he)
  cases e with
  | asked q r time =>
    obtain ⟨state, rfl⟩ := hanswered
    exact hw q state time
  | _ => trivial

theorem mem_of_any_stopped {evs : List (Event τ)}
    (h : evs.any (· matches .stopped) = true) : .stopped ∈ evs := by
  obtain ⟨e, he, hstopped⟩ := List.any_eq_true.mp h
  cases e with
  | stopped => exact he
  | _ => cases hstopped

theorem Sample.stuck_sound : Sample.stuck.Sound := by
  intro q state time
  cases q with
  | api call =>
    cases call with
    | readDeployment ns name => exact ⟨⟨_, _, rfl, rfl⟩, ⟨_, _, rfl, rfl⟩, ⟨_, rfl⟩⟩
    | listPods ns selector phase =>
      rintro rfl
      exact ⟨[], rfl, fun p hp => absurd hp List.not_mem_nil⟩
    | _ => trivial
  | _ => trivial

variable [TimeScale τ]

namespace Plan

variable {p : Plan τ} {evs : List (Event τ)} {r : Except Failure Unit} {s : RunState}

/-- A run that measures and tunes by itself; its connection and its comparator may be given. -/
structure Unaided (p : Plan τ) : Prop where
  connect : (∃ ns, p.team.connect = Outside.connect ns) ∨
    ∃ env settings, p.team.connect = Session.connect env settings
  drive : p.team.drive = Load.run p.settings.ns
  tune : p.team.tune = Tuning.apply p.limits.pace p.limits.tuning
  compare : p.team.compare = none ∨ p.team.compare = some Outside.compare

namespace Unaided

theorem usual (h : p.Unaided) : p.team.Usual :=
  ⟨h.connect, .inr ⟨_, h.drive⟩, .inr ⟨_, _, h.tune⟩, h.compare⟩

theorem asksOnly (h : p.Unaided) : p.team.AsksOnly Question.Unaided where
  connect := (Team.asks_connection h.connect).mono unaided_of_learns
  drive c metadata metrics podMetrics := by
    rw [h.drive]
    exact (Load.asks_run _ c metadata metrics podMetrics).mono unaided_of_gauges
  tune profile := by
    rw [h.tune]
    exact (Tuning.asks_apply _ _ profile).mono unaided_of_applies
  compare := Team.asks_comparator h.compare fun _ _ => trivial

/-- A run that measures and tunes by itself asks nobody else to do so. -/
theorem asks_start (h : p.Unaided) : p.start.Asks Question.Unaided := by
  have hteam := h.asksOnly
  refine Keeping.asks_bind (asks_connect_of unaided_of_learns hteam.connect)
    fun (metadata, metrics) => ?_
  refine Keeping.asks_bind (asks_deployAssets.mono (unaided_of_creates _)) fun _ => ?_
  refine Keeping.asks_bind (asks_reach _) fun _ => ?_
  refine Keeping.asks_bind (asks_runCases hteam unaided_of_handles unaided_of_stores metadata
    metrics 1 p.cases) fun _ => ?_
  exact asks_wrapUp.mono fun q hq => hq.elim (unaided_of_stores q) (unaided_of_removes _ q)

end Unaided

/-! ### Cancellation -/

/-- What cancellation means for a start in a world: for the events that it leaves, what it ends with,
and whether the run is stopped afterwards. -/
structure Cancels (p : Plan τ) (w : World τ σ) (trace : List (Event τ))
    (outcome : Except Failure Unit) (stopped : Bool) : Prop where
  /-- When a pause is cut short, nothing follows but lines of the log and a listing of pending pods,
  and the start fails as cancelled, if what the cluster tells can be judged. -/
  prompt : (∀ e ∈ trace, e.Sound) → ∀ before after, trace = before ++ .stopped :: after →
    (∀ e ∈ after, e.Reports) ∧ ∃ x, outcome = .error x ∧ x.isCancelled = true
  /-- It fails as cancelled only when the run was stopped, unless a helper that was given to the run
  failed with just this. -/
  caused : ∀ x, outcome = .error x → x.isCancelled = true →
    (∀ e ∈ trace, e.Asks Question.Given → ¬ e.Raises x) → stopped = true
  /-- Once the run is stopped, every wait that is begun looks once at most, and lets no time pass. -/
  watches : ∀ {β : Type} (h : History τ σ) (timeout : τ) (look : Action τ (β × Bool)),
    h.stopped = true →
      (w.run look.run h).2.Rests (w.run (watch p.limits.pace timeout look).run h).2
  awaits : ∀ (h : History τ σ) (timeout : τ) (condition : Action τ Bool) (immediate : Bool),
    h.stopped = true → (if immediate then (w.run condition.run h).2 else h).Rests
      (w.run (waitUntil p.limits.pace timeout condition immediate).run h).2

/-- **Cancellation is prompt, and never misreported.** -/
theorem start_cancels (p : Plan τ) (hp : p.Unaided) (w : World τ σ) (now : τ) (world : σ)
    (stopped : Bool) (session : Option Session) (sink : Option Sink) :
    let run := w.run (p.start.perform (.fresh session sink)) { now, stopped, state := world }
    Cancels p w run.2.events.reverse run.1.1 run.2.stopped := by
  intro run
  have hleaves : p.start.Leaves (.fresh session sink) run.2.events.reverse run.1.1 run.1.2 :=
    w.run_leaves_fresh _ _ rfl
  have hended := endsRun_start hp.usual _ _ _ _ (show Phase.init ≠ .done by decide) hleaves
  have hhonest : run.2.Honest := World.run_honest _ fun hmem => absurd hmem List.not_mem_nil
  refine ⟨fun hsound _ _ => hended.halted hsound, fun x hx hcancelled hnone => ?_,
    fun h timeout look hs => watch_stopped rfl hs timeout look,
    fun h timeout condition immediate hs => waitUntil_stopped rfl hs timeout condition immediate⟩
  rw [hx] at hended
  rcases hended.cause hcancelled with ⟨e, he, hraises⟩ | hmem
  · -- No driver and no tuner was asked, so that a helper that raised it was given to the run.
    have hgiven := hraises.given (hp.asks_start _ _ _ _ hleaves e he)
    exact absurd hraises (hnone e he hgiven)
  · exact hhonest (List.mem_reverse.mp hmem)

/-- Where the servers never become ready, a run that is stopped while it waits for them is
cancelled. -/
theorem start_cancels_stuck :
    let p := Sample.alone [{ serverReplicas := 2 }]
    let run := Sample.stuck.run (p.start.perform (.fresh none none)) { now := 0, state := {} }
    p.Unaided ∧ Cancels p Sample.stuck run.2.events.reverse run.1.1 run.2.stopped ∧
      (∀ e ∈ run.2.events.reverse, e.Sound) ∧ .stopped ∈ run.2.events.reverse :=
  have hp : (Sample.alone [{ serverReplicas := 2 }]).Unaided := ⟨.inl ⟨_, rfl⟩, rfl, rfl, .inr rfl⟩
  have hcancels := start_cancels _ hp Sample.stuck 0 {} false none none
  ⟨hp, hcancels, Sample.stuck_sound.run _ _ rfl, mem_of_any_stopped (by decide +kernel)⟩

end Plan
end IngressBench
