import IngressBench.Proofs.Program.Twins
import IngressBench.Proofs.Run.Phases

/-!
Two runs of one plan, side by side. The runs are in the same state but for their verdicts
(`Plan.Apart`). Of a variation that concerns no common question, and neither the driver nor the tuner,
only the comparator and the sink can make a difference; where these two make twins the whole run up to
its verdict does (`Plan.twins_removing`).
-/
namespace IngressBench.Plan

variable {τ : Type} [TimeScale τ]

/-- States that agree but for the verdict, with verdicts that are related by `V`. -/
def Apart (V : Bool → Bool → Prop) (s₁ s₂ : RunState) : Prop :=
  ∃ passed, s₂ = { s₁ with passed } ∧ V s₁.passed passed

theorem apart_eq : Apart Eq = Eq := by
  funext s₁ s₂
  refine propext ⟨?_, ?_⟩
  · rintro ⟨_, rfl, rfl⟩
    rfl
  · rintro rfl
    exact ⟨_, rfl, rfl⟩

variable {V : Bool → Bool → Prop} {v : Variation} {p : Plan τ}

omit [TimeScale τ] in
/-- A change that neither sees nor touches the verdict. -/
theorem twins_change {f : RunState → RunState} (hpassed : ∀ s, (f s).passed = s.passed)
    (hblind : ∀ s passed, f { s with passed } = { f s with passed }) :
    Keeping.Twins v (Apart V) Eq (modify f : Stage τ PUnit) (modify f) := by
  refine Keeping.twins_modify fun s₁ s₂ ⟨passed, hs, hV⟩ => ?_
  refine ⟨passed, by rw [hs, hblind], ?_⟩
  rwa [hpassed]

omit [TimeScale τ] in
theorem twins_reach (phase : Phase) :
    Keeping.Twins v (Apart V) Eq (reach phase : Stage τ Unit) (reach phase) :=
  twins_change (fun _ => rfl) fun _ _ => rfl

omit [TimeScale τ] in
/-- A run without a sink has nothing to store. -/
theorem withSink_none (step : Keeping Sink τ Unit) {s : RunState} (h : s.sink = none) :
    (withSink step).perform s = .done (.ok (), s) := by
  cases s
  cases h
  rfl

omit [TimeScale τ] in
/-- A run with a sink does what the sink does. -/
theorem withSink_some (step : Keeping Sink τ Unit) {s : RunState} {sink : Sink}
    (h : s.sink = some sink) : (withSink step).perform s =
      (step.perform sink).bind fun o => .done (o.1, { s with sink := some o.2 }) := by
  cases s
  cases h
  rfl

omit [TimeScale τ] in
/-- Steps of the sink that are twins are so within a run. -/
theorem twins_withSink {step₁ step₂ : Keeping Sink τ Unit}
    (h : Keeping.Twins v Eq Eq step₁ step₂) :
    Keeping.Twins v (Apart V) Eq (withSink step₁) (withSink step₂) := by
  rintro s₁ s₂ ⟨passed, hs, hV⟩
  have hsink : s₂.sink = s₁.sink := by rw [hs]
  cases hone : s₁.sink with
  | none =>
    rw [withSink_none step₁ hone, withSink_none step₂ (hsink.trans hone)]
    exact .done ⟨rfl, passed, hs, hV⟩
  | some sink =>
    rw [withSink_some step₁ hone, withSink_some step₂ (hsink.trans hone)]
    refine (h sink sink rfl).bind ?_
    rintro ⟨r₁, sink₁⟩ ⟨r₂, sink₂⟩ ⟨hagree, hsame⟩
    obtain rfl : sink₁ = sink₂ := hsame
    exact .done ⟨hagree, passed, by rw [hs], hV⟩

/-! ### Stages -/

section
variable (hcommon : ∀ q, q.Common → ¬ v.concerns q)
include hcommon

section
variable (hconnect : p.team.connect.Asks fun q => ¬ v.concerns q)
include hconnect

omit hcommon in
theorem twins_session : Keeping.Twins v (Apart V) Eq p.session p.session := by
  refine Keeping.twins_bind Keeping.twins_get ?_
  rintro s₁ _ ⟨passed, rfl, -⟩
  dsimp only
  cases s₁.session with
  | some session => exact Keeping.twins_pure rfl
  | none =>
    refine Keeping.twins_bind_eq (Keeping.twins_lift hconnect) fun session => ?_
    refine Keeping.twins_bind_eq (twins_change (fun _ => rfl) fun _ _ => rfl) fun _ => ?_
    exact Keeping.twins_pure rfl

theorem twins_connect : Keeping.Twins v (Apart V) Eq p.connect p.connect := by
  have hlearns : ∀ q, q.Learns → ¬ v.concerns q := fun q h => hcommon q (common_of_learns q h)
  refine Keeping.twins_bind_eq (twins_session hconnect) fun session => ?_
  refine Keeping.twins_bind_eq (Keeping.twins_lift (Discovery.asks_metadata.mono hlearns))
    fun metadata => ?_
  refine Keeping.twins_bind_eq
    (Keeping.twins_lift ((Discovery.asks_metricsServer _ _).mono hlearns)) fun metrics => ?_
  refine Keeping.twins_bind_eq (Keeping.twins_lift ((asks_withBalancer _).mono hlearns))
    fun metadata => ?_
  exact Keeping.twins_bind_eq (twins_reach _) fun _ => Keeping.twins_pure rfl

end

theorem twins_deployAssets : Keeping.Twins v (Apart V) Eq p.deployAssets p.deployAssets := by
  refine Keeping.twins_bind_eq (Keeping.twins_lift ((asks_deploy _).mono fun q h =>
    hcommon q (common_of_creates q h))) fun existed => ?_
  exact Keeping.twins_bind_eq (twins_change (fun _ => rfl) fun _ _ => rfl) fun _ => twins_reach _

theorem twins_teardown : Keeping.Twins v (Apart V) Eq p.teardown p.teardown := by
  refine Keeping.twins_bind Keeping.twins_get ?_
  rintro s₁ _ ⟨passed, rfl, -⟩
  dsimp only
  split
  · exact Keeping.twins_pure rfl
  refine Keeping.twins_bind_eq (twins_change (fun _ => rfl) fun _ _ => rfl) fun _ => ?_
  cases s₁.session with
  | some session =>
    exact Keeping.twins_lift ((asks_removeAssets _ _ _ _).mono fun q h =>
      hcommon q (common_of_removes q h))
  | none =>
    exact Keeping.twins_bind_eq (Keeping.twins_lift (Action.asks_log _ _)) fun _ =>
      Keeping.twins_throw _

variable (htune : ∀ profile, (p.team.tune profile).Asks fun q => ¬ v.concerns q)
  (hdrive : ∀ c metadata server podMetrics,
    (p.team.drive c metadata server podMetrics).Asks fun q => ¬ v.concerns q)
  (hcompare : ∀ c results, Keeping.Twins v (Apart V) Eq (p.compare c results) (p.compare c results))
  (haccept : ∀ results : List (Option Result),
    Keeping.Twins v Eq Eq (Sink.accept results : Keeping Sink τ Unit) (Sink.accept results))
include htune hdrive hcompare haccept

omit hcommon hdrive hcompare haccept in
theorem twins_tune (c : TestCase) : Keeping.Twins v (Apart V) Eq (p.tune c) (p.tune c) := by
  refine Keeping.twins_bind Keeping.twins_get ?_
  rintro s₁ _ ⟨passed, rfl, -⟩
  dsimp only
  split
  · refine Keeping.twins_bind_eq (Keeping.twins_lift (htune _)) fun _ => ?_
    exact twins_change (fun _ => rfl) fun _ _ => rfl
  · exact Keeping.twins_pure rfl

theorem twins_runCase (metadata : ClusterMetadata) (metrics : MetricsServer) (c : TestCase) :
    Keeping.Twins v (Apart V) Eq (p.runCase metadata metrics c) (p.runCase metadata metrics c) := by
  have hhandles : ∀ {ns name : String} (q : Question), q.Handles ns name → ¬ v.concerns q :=
    fun q h => hcommon q (common_of_handles q h)
  refine Keeping.twins_bind_eq (Keeping.twins_lift (asks_reconcile_of hhandles hhandles _ _ _ _))
    fun _ => ?_
  refine Keeping.twins_bind_eq (twins_tune htune c) fun _ => ?_
  refine Keeping.twins_bind_eq (Keeping.twins_lift (hdrive _ _ _ _)) fun results => ?_
  split
  · exact Keeping.twins_lift (Action.asks_log _ _)
  · exact Keeping.twins_bind_eq (hcompare c results) fun _ => twins_withSink (haccept _)

theorem twins_runCases (metadata : ClusterMetadata) (metrics : MetricsServer) (number : Nat)
    (cases : List TestCase) :
    Keeping.Twins v (Apart V) Eq (p.runCases metadata metrics number cases)
      (p.runCases metadata metrics number cases) := by
  induction cases generalizing number with
  | nil => exact Keeping.twins_pure rfl
  | cons c rest ih =>
    refine Keeping.twins_bind_eq (Keeping.twins_lift (Action.asks_log _ _)) fun _ => ?_
    refine Keeping.twins_bind_eq (Keeping.twins_lift (Action.asks_log _ _)) fun _ => ?_
    exact Keeping.twins_bind_eq (twins_runCase hcommon htune hdrive hcompare haccept _ _ _)
      fun _ => ih (number + 1)

variable (hconnect : p.team.connect.Asks fun q => ¬ v.concerns q)
  (hclose : Keeping.Twins v Eq Eq (Sink.close : Keeping Sink τ Unit) Sink.close)
include hconnect hclose

/-- **Up to its verdict a run is its own twin.** -/
theorem twins_removing : Keeping.Twins v (Apart V) Eq p.removing p.removing := by
  have hmeasuring : Keeping.Twins v (Apart V) Eq p.measuring p.measuring := by
    refine Keeping.twins_bind_eq ?_ fun (metadata, metrics) => ?_
    · refine Keeping.twins_bind_eq (twins_connect hcommon hconnect) fun learnt => ?_
      exact Keeping.twins_bind_eq (twins_deployAssets hcommon) fun _ => Keeping.twins_pure rfl
    refine Keeping.twins_bind_eq (twins_reach _) fun _ => ?_
    refine Keeping.twins_bind_eq (twins_runCases hcommon htune hdrive hcompare haccept _ _ _ _)
      fun _ => ?_
    exact twins_withSink hclose
  refine Keeping.twins_bind_eq hmeasuring fun _ => Keeping.twins_bind_eq (twins_reach _) fun _ => ?_
  split
  · exact twins_teardown hcommon
  · exact Keeping.twins_pure rfl

end

/-! ### The end -/

omit [TimeScale τ] in
theorem asks_ending {P : Question → Prop} : p.ending.Asks P := by
  have hverdict : Keeping.Asks P
      (do reach .done; if !(← get).passed then throw .comparison : Stage τ Unit) := by
    refine Keeping.asks_bind (asks_reach _) fun _ => Keeping.asks_bind Keeping.asks_get fun s => ?_
    split
    · exact Keeping.asks_throw _
    · exact Keeping.asks_pure _
  unfold ending
  split
  · exact Keeping.asks_bind (asks_reach _) fun _ => hverdict
  · exact hverdict

/-- The end of a start asks nothing: the run is done, and ends with its verdict. -/
theorem run_ending {σ : Type} (w : World τ σ) (h : History τ σ) (s : RunState) :
    w.run (p.ending.perform s) h = ((s.verdict, { s with phase := .done }), h) := by
  obtain ⟨phase, existed, tuning, torndown, passed, session, sink⟩ := s
  unfold ending
  cases p.cleanup <;> cases passed <;> rfl

end IngressBench.Plan
