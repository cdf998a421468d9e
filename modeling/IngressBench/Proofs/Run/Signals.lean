import IngressBench.Proofs.Run.Changes
import IngressBench.Proofs.Run.Stages
import IngressBench.Proofs.Signals.Helpers
import IngressBench.Proofs.Signals.Storing

/-!
Runs heed signals. Every stage of a run does, whatever the helpers of a usual team answer. Only the
verdict at the end of a run is a signal of its own: a run that comes to its end fails exactly when a
comparison was not passed, and a run that fails before does so for a cause (`endsRun_start`).
-/
namespace IngressBench

/-- What a run that comes to its end ends with. -/
def RunState.verdict (s : RunState) : Except Failure Unit :=
  if s.passed then .ok () else .error .comparison

namespace Plan

variable {τ : Type} [TimeScale τ] {p : Plan τ} {s s' : RunState} {evs : List (Event τ)}
  {r : Except Failure Unit}

/-! ### Stages -/

omit [TimeScale τ] in
theorem heeds_reach (phase : Phase) : (reach phase : Stage τ Unit).Heeds :=
  Keeping.heeds_modify _

omit [TimeScale τ] in
theorem heeds_withSink {step : Keeping Sink τ Unit} (h : step.Heeds) : (withSink step).Heeds := by
  intro s evs r s' hl
  rcases withSink_leaves hl with ⟨-, rfl, rfl, -⟩ | ⟨sink, sink', -, hstep, -⟩
  · exact heeded_of_calm (fun e he => absurd he List.not_mem_nil) (plain_ok ())
  · exact h _ _ _ _ hstep

omit [TimeScale τ] in
theorem heeds_session (h : p.team.connect.Heeds) : p.session.Heeds := by
  refine Keeping.heeds_bind Keeping.heeds_get fun s => ?_
  cases s.session with
  | some session => exact Keeping.heeds_pure _
  | none =>
    refine Keeping.heeds_bind (Keeping.heeds_lift h) fun _ => ?_
    exact Keeping.heeds_bind (Keeping.heeds_modify _) fun _ => Keeping.heeds_pure _

omit [TimeScale τ] in
/-- No failure to tell the version of the load balancer comes through. -/
theorem calm_withBalancer (m : ClusterMetadata) :
    (withBalancer m : Action τ ClusterMetadata).Calm := by
  refine Action.calm_attempt_bind Discovery.calm_loadBalancerVersion fun e _ => ?_
  cases e with
  | ok _ => exact Action.calm_bind (Action.calm_log _ _) fun _ => Action.calm_pure _
  | error _ => exact Action.calm_bind (Action.calm_log _ _) fun _ => Action.calm_pure _

theorem heeds_connect (hp : p.team.Usual) : p.connect.Heeds := by
  refine Keeping.heeds_bind (heeds_session hp.heeds_connect) fun session => ?_
  refine Keeping.heeds_bind (Keeping.heeds_lift Discovery.calm_metadata.heeds) fun _ => ?_
  refine Keeping.heeds_bind (Keeping.heeds_lift (Discovery.calm_metricsServer _ _).heeds) fun _ => ?_
  refine Keeping.heeds_bind (Keeping.heeds_lift (calm_withBalancer _).heeds) fun _ => ?_
  exact Keeping.heeds_bind (heeds_reach _) fun _ => Keeping.heeds_pure _

omit [TimeScale τ] in
theorem heeds_deployAssets : p.deployAssets.Heeds := by
  refine Keeping.heeds_bind (Keeping.heeds_lift (calm_deploy _).heeds) fun _ => ?_
  exact Keeping.heeds_bind (Keeping.heeds_modify _) fun _ => heeds_reach _

theorem heeds_tune (hp : p.team.Usual) (c : TestCase) : (p.tune c).Heeds := by
  refine Keeping.heeds_bind Keeping.heeds_get fun s => ?_
  split
  · exact Keeping.heeds_bind (Keeping.heeds_lift (hp.heeds_tune _)) fun _ => Keeping.heeds_modify _
  · exact Keeping.heeds_pure _

/-- A verdict of any kind lets the run go on. -/
theorem heeds_compare (hp : p.team.Usual) (c : TestCase) (results : List Result) :
    (p.compare c results).Heeds := by
  unfold compare
  split
  · rename_i comparator hc
    refine Keeping.heeds_bind (Keeping.heeds_lift (hp.heeds_compare hc c results)) fun verdict => ?_
    split
    · refine Keeping.heeds_bind (Keeping.heeds_lift (Action.calm_log _ _).heeds) fun _ => ?_
      exact Keeping.heeds_modify _
    · exact Keeping.heeds_pure _
  · exact Keeping.heeds_pure _

theorem heeds_runCase (hp : p.team.Usual) (metadata : ClusterMetadata) (metrics : MetricsServer)
    (c : TestCase) : (p.runCase metadata metrics c).Heeds := by
  refine Keeping.heeds_bind (Keeping.heeds_lift (heeds_reconcile _ _ _ _ _)) fun _ => ?_
  refine Keeping.heeds_bind (heeds_tune hp c) fun _ => ?_
  refine Keeping.heeds_bind (Keeping.heeds_lift (hp.heeds_drive _ _ _ _)) fun results => ?_
  split
  · exact Keeping.heeds_lift (Action.calm_log _ _).heeds
  · exact Keeping.heeds_bind (heeds_compare hp c results) fun _ =>
      heeds_withSink (Sink.heeds_accept _)

theorem heeds_runCases (hp : p.team.Usual) (metadata : ClusterMetadata) (metrics : MetricsServer)
    (number : Nat) (cases : List TestCase) : (p.runCases metadata metrics number cases).Heeds := by
  induction cases generalizing number with
  | nil => exact Keeping.heeds_pure _
  | cons c rest ih =>
    refine Keeping.heeds_bind (Keeping.heeds_lift (Action.calm_log _ _).heeds) fun _ => ?_
    refine Keeping.heeds_bind (Keeping.heeds_lift (Action.calm_log _ _).heeds) fun _ => ?_
    exact Keeping.heeds_bind (heeds_runCase hp metadata metrics _) fun _ => ih (number + 1)

theorem heeds_teardown : p.teardown.Heeds := by
  refine Keeping.heeds_bind Keeping.heeds_get fun s => ?_
  split
  · exact Keeping.heeds_pure _
  · refine Keeping.heeds_bind (Keeping.heeds_modify _) fun _ => ?_
    split
    · exact Keeping.heeds_lift (heeds_removeAssets _ _ _ _)
    · refine Keeping.heeds_bind (Keeping.heeds_lift (Action.calm_log _ _).heeds) fun _ => ?_
      exact Keeping.heeds_throw rfl

/-! ### The end of a run -/

/-- How a run ends: it fails on its way, or it comes to its end and its verdict tells how. -/
inductive Ended (evs : List (Event τ)) (r : Except Failure Unit) (s : RunState) : Prop where
  | failed (x : Failure) (hr : r = .error x) (hphase : s.phase ≠ .done) (hheeded : Heeded evs r)
  | finished (hr : r = s.verdict) (hphase : s.phase = .done)
      (hheeded : Heeded evs (.ok () : Except Failure Unit))

omit [TimeScale τ] in
/-- A run is done if it ends well, or with a verdict of its own. -/
theorem Ended.done_iff (h : Ended evs r s) :
    s.phase = .done ↔ r = .ok () ∨ r = .error .comparison ∧ ∀ e ∈ evs, ¬ e.Raises .comparison := by
  cases h with
  | failed x hr hphase hheeded =>
    refine iff_of_false hphase fun hends => ?_
    rcases hends with hok | ⟨hcomparison, hnone⟩
    · rw [hok] at hr
      cases hr
    · rcases hheeded.caused _ hcomparison rfl with ⟨e, he, hraises⟩ | ⟨hcancelled, -⟩
      · exact hnone e he hraises
      · cases hcancelled
  | finished hr hphase hheeded =>
    refine iff_of_true hphase ?_
    have hnone : ∀ e ∈ evs, ¬ e.Raises .comparison := fun e he hraises => by
      cases hheeded.raised e he _ hraises rfl
    unfold RunState.verdict at hr
    split at hr
    · exact .inl hr
    · exact .inr ⟨hr, hnone⟩

omit [TimeScale τ] in
/-- A run in which a pause was cut short ends as cancelled after a report. -/
theorem Ended.halted (h : Ended evs r s) (hsound : ∀ e ∈ evs, e.Sound)
    {before after : List (Event τ)} (hsplit : evs = before ++ .stopped :: after) :
    (∀ e ∈ after, e.Reports) ∧ ∃ x, r = .error x ∧ x.isCancelled = true := by
  cases h with
  | failed x hr hphase hheeded => exact hheeded.halted hsound hsplit
  | finished hr hphase hheeded =>
    obtain ⟨-, x, hx, -⟩ := hheeded.halted hsound hsplit
    cases hx

omit [TimeScale τ] in
/-- A run ends as cancelled because a helper did, or because a pause was cut short. -/
theorem Ended.cause {x : Failure} (h : Ended evs (.error x) s) (hx : x.isCancelled = true) :
    (∃ e ∈ evs, e.Raises x) ∨ .stopped ∈ evs := by
  cases h with
  | failed y hr hphase hheeded =>
    rcases hheeded.caused x rfl (Failure.isSignal_of_isCancelled hx) with hraised | ⟨-, hstopped⟩
    · exact .inl hraised
    · exact .inr hstopped
  | finished hr hphase hheeded =>
    unfold RunState.verdict at hr
    split at hr
    · cases hr
    · cases hr
      cases hx

/-- A run that is not done is not done afterwards either. -/
def Unfinished (s s' : RunState) : Prop :=
  s.phase ≠ .done → s'.phase ≠ .done

theorem unfinished_of_phase (h : s'.phase = s.phase) : Unfinished s s' :=
  fun hs => h ▸ hs

/-- A stage of a run, begun before the run is done, ends it. -/
def EndsRun (m : Stage τ Unit) : Prop :=
  ∀ s evs r s', s.phase ≠ .done → m.Leaves s evs r s' → Ended evs r s'

omit [TimeScale τ] in
/-- A run ends after a stage that heeds signals as it does without. -/
theorem endsRun_bind {α : Type} {m : Stage τ α} {f : α → Stage τ Unit} (hm : m.Heeds)
    (hkeeps : m.Keeps Unfinished) (hf : ∀ v, EndsRun (f v)) : EndsRun (m >>= f) := by
  intro s evs r s' hs h
  rcases Keeping.leaves_bind.mp h with ⟨x, hx, rfl⟩ | ⟨v, s₁, first, rest, hv, hr, rfl⟩
  · exact .failed x rfl (hkeeps _ _ _ _ hx hs) (hm _ _ _ _ hx).failed
  · have hfirst := hm _ _ _ _ hv
    cases hf v _ _ _ _ (hkeeps _ _ _ _ hv hs) hr with
    | failed x hr hphase hheeded => exact .failed x hr hphase (hfirst.append (plain_ok v) hheeded)
    | finished hr hphase hheeded => exact .finished hr hphase (hfirst.append (plain_ok v) hheeded)

omit [TimeScale τ] in
theorem unfinished_reach {phase : Phase} (h : phase ≠ .done) :
    (reach phase : Stage τ Unit).Keeps Unfinished :=
  Keeping.keeps_modify fun _ _ => h

omit [TimeScale τ] in
/-- The last step of a run tells its verdict. -/
theorem endsRun_verdict :
    EndsRun (do reach .done; if !(← get).passed then throw .comparison : Stage τ Unit) := by
  intro s evs r s' _ h
  have h₁ := Keeping.leaves_get_bind.mp (Keeping.leaves_modify_bind.mp h)
  have hnone : Heeded ([] : List (Event τ)) (.ok () : Except Failure Unit) :=
    heeded_of_calm (fun e he => absurd he List.not_mem_nil) (plain_ok ())
  cases hpassed : s.passed with
  | true =>
    simp only [hpassed, Bool.not_true, Bool.false_eq_true, if_false] at h₁
    obtain ⟨rfl, rfl, rfl⟩ := Keeping.leaves_pure.mp h₁
    exact .finished (by simp [RunState.verdict]) rfl hnone
  | false =>
    simp only [hpassed, Bool.not_false, if_true] at h₁
    obtain ⟨rfl, rfl, rfl⟩ := Keeping.leaves_throw.mp h₁
    exact .finished (by simp [RunState.verdict]) rfl hnone

theorem endsRun_wrapUp : EndsRun p.wrapUp := by
  refine endsRun_bind (heeds_withSink Sink.heeds_close) (fun s evs r s' h => ?_) fun _ => ?_
  · exact unfinished_of_phase (keeps_withSink _ _ _ _ _ h).phase_eq
  refine endsRun_bind (heeds_reach _) (unfinished_reach (by decide)) fun _ => ?_
  split
  · refine endsRun_bind heeds_teardown (fun s evs r s' h => ?_) fun _ => ?_
    · obtain ⟨rfl, -⟩ := teardown_leaves h
      exact unfinished_of_phase rfl
    exact endsRun_bind (heeds_reach _) (unfinished_reach (by decide)) fun _ => endsRun_verdict
  · exact endsRun_verdict

/-- **A run fails for a cause, or comes to its end and tells its verdict.** -/
theorem endsRun_start (hp : p.team.Usual) : EndsRun p.start := by
  refine endsRun_bind (heeds_connect hp) (fun s evs r s' h => ?_) fun (metadata, metrics) => ?_
  · obtain ⟨session, -, ⟨-, rfl⟩ | ⟨-, -, rfl⟩⟩ := connect_leaves h
    · exact unfinished_of_phase rfl
    · exact fun _ hdone => nomatch hdone
  refine endsRun_bind heeds_deployAssets (fun s evs r s' h => ?_) fun _ => ?_
  · obtain ⟨_, -, -, rfl⟩ | ⟨_, -, -, rfl⟩ := deployAssets_leaves h
    · exact unfinished_of_phase rfl
    · exact fun _ hdone => nomatch hdone
  refine endsRun_bind (heeds_reach _) (unfinished_reach (by decide)) fun _ => ?_
  refine endsRun_bind (heeds_runCases hp metadata metrics 1 p.cases) (fun s evs r s' h => ?_)
    fun _ => endsRun_wrapUp
  exact unfinished_of_phase (runCases_along h).phase_eq

end Plan
end IngressBench
