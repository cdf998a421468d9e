import IngressBench.Proofs.Benchmark.Load
import IngressBench.Proofs.Deploy
import IngressBench.Proofs.Indexing.Sink
import IngressBench.Proofs.Reconcile
import IngressBench.Proofs.Run.Course
import IngressBench.Proofs.Run.Team
import IngressBench.Proofs.Teardown

/-!
The stages of a run: what each of them asks for, and how it leaves the run standing. A stage that is
begun by a free run and ends well leaves the run free, so a start that ends well met all its
obligations (`guards_start`).
-/
namespace IngressBench

/-- A question that is asked before the first test case. -/
def Question.Opens (ns : String) (q : Question) : Prop :=
  q.Learns ∨ q.Creates (Assets.all ns)

/-- A question that is asked before a test case is measured. -/
def Question.Prepares (ns : String) (q : Question) : Prop :=
  q.Handles ns Assets.serverName ∨ q.Handles ns Assets.clientName ∨ q.Tunes

theorem Question.Prepares.shape {ns : String} {q : Question} (h : q.Prepares ns) :
    (∃ profile, q = .tune profile) ∨ ∃ call : ApiCall, q = .api call := by
  rcases h with h | h | ⟨profile, rfl⟩ | ⟨options, rfl⟩ | rfl | ⟨selector, rfl⟩
  · rcases h with (rfl | ⟨selector, rfl⟩) | ⟨replicas, rfl⟩ <;> exact .inr ⟨_, rfl⟩
  · rcases h with (rfl | ⟨selector, rfl⟩) | ⟨replicas, rfl⟩ <;> exact .inr ⟨_, rfl⟩
  · exact .inl ⟨profile, rfl⟩
  all_goals exact .inr ⟨_, rfl⟩

/-- A question that is asked after a test case has been measured. -/
def Question.Follows (q : Question) : Prop :=
  (∃ c results, q = .compare c results) ∨ q.Stores

/-- Any question but those to a tuner, a driver, a comparator or an indexer. -/
def Question.Common : Question → Prop
  | .tune _ | .drive .. | .compare .. | .index .. | .bulk .. => False
  | _ => True

theorem common_of_learns (q : Question) (h : q.Learns) : q.Common := by
  cases q <;> trivial

theorem common_of_gauges (q : Question) (h : q.Gauges) : q.Common := by
  cases q <;> trivial

theorem common_of_removes {K : ObjectKind → Prop} (q : Question) (h : q.Removes K) :
    q.Common := by
  cases q <;> trivial

theorem common_of_creates {objects : List Manifest} (q : Question) (h : q.Creates objects) :
    q.Common := by
  obtain ⟨_, _, rfl⟩ := h
  trivial

theorem common_of_looks {ns name : String} (q : Question) (h : q.LooksAt ns name) : q.Common := by
  rcases h with rfl | ⟨_, rfl⟩ <;> trivial

theorem common_of_handles {ns name : String} (q : Question) (h : q.Handles ns name) :
    q.Common := by
  rcases h with hlooks | ⟨_, rfl⟩
  · exact common_of_looks q hlooks
  · trivial

theorem common_of_applies (q : Question) (h : q.Applies) : q.Common := by
  rcases h with ⟨_, rfl⟩ | hlooks
  · trivial
  · exact common_of_looks q hlooks

namespace Plan

variable {τ : Type} [TimeScale τ] {P : Question → Prop} {p : Plan τ} {s s' : RunState}
  {evs : List (Event τ)}

/-! ### Steps around the sink -/

omit [TimeScale τ] in
theorem only_withSink {P : Event τ → Prop} {step : Keeping Sink τ Unit} (h : step.Only P) :
    (withSink step).Only P := by
  intro s evs r s' hl e he
  rcases withSink_leaves hl with ⟨-, rfl, -⟩ | ⟨sink, sink', -, hstep, -⟩
  · exact absurd he List.not_mem_nil
  · exact h _ _ _ _ hstep e he

omit [TimeScale τ] in
theorem asks_withSink {step : Keeping Sink τ Unit} (h : step.Asks P) : (withSink step).Asks P :=
  only_withSink h

omit [TimeScale τ] in
theorem guards_withSink {step : Keeping Sink τ Unit} (h : step.Guards .free .free) :
    (withSink step).Guards .free .free := by
  intro s evs r s' hl
  rcases withSink_leaves hl with ⟨-, rfl, rfl, -⟩ | ⟨sink, sink', -, hstep, -⟩
  · exact ⟨trivial, Standing.free.well_ok ()⟩
  · exact h _ _ _ _ hstep

omit [TimeScale τ] in
theorem asks_reach (phase : Phase) : (reach phase : Stage τ Unit).Asks P :=
  Keeping.asks_modify _

omit [TimeScale τ] in
theorem guards_reach (phase : Phase) : (reach phase : Stage τ Unit).Guards .free .free :=
  Keeping.guards_modify _

/-! ### Connecting -/

omit [TimeScale τ] in
theorem only_session {P : Event τ → Prop} (h : p.team.connect.Only P) : p.session.Only P := by
  refine Keeping.only_bind Keeping.only_get fun s => ?_
  cases s.session with
  | some session => exact Keeping.only_pure _
  | none =>
    refine Keeping.only_bind (Keeping.only_lift h) fun _ => ?_
    exact Keeping.only_bind (Keeping.only_modify _) fun _ => Keeping.only_pure _

omit [TimeScale τ] in
theorem asks_session (h : p.team.connect.Asks P) : p.session.Asks P :=
  only_session h

omit [TimeScale τ] in
theorem asks_withBalancer (m : ClusterMetadata) :
    (withBalancer m : Action τ ClusterMetadata).Asks Question.Learns := by
  refine Action.asks_bind (Action.asks_attempt Discovery.asks_loadBalancerVersion) fun e => ?_
  cases e with
  | ok _ => exact Action.asks_bind (Action.asks_log _ _) fun _ => Action.asks_pure _
  | error _ => exact Action.asks_bind (Action.asks_log _ _) fun _ => Action.asks_pure _

omit [TimeScale τ] in
theorem asks_connect_of (hP : ∀ q, q.Learns → P q) (h : p.team.connect.Asks P) :
    p.connect.Asks P := by
  refine Keeping.asks_bind (asks_session h) fun _ => ?_
  refine Keeping.asks_bind (Keeping.asks_lift (Discovery.asks_metadata.mono hP)) fun _ => ?_
  refine Keeping.asks_bind (Keeping.asks_lift ((Discovery.asks_metricsServer _ _).mono hP))
    fun _ => ?_
  refine Keeping.asks_bind (Keeping.asks_lift ((asks_withBalancer _).mono hP)) fun _ => ?_
  exact Keeping.asks_bind (asks_reach _) fun _ => Keeping.asks_pure _

omit [TimeScale τ] in
theorem asks_connect (h : p.team.connect.Asks Question.Learns) : p.connect.Asks Question.Learns :=
  asks_connect_of (fun _ => id) h

omit [TimeScale τ] in
theorem guards_session (h : p.team.connect.Guards .free Standing.free.Well) :
    p.session.Guards .free .free := by
  refine Keeping.guards_bind Keeping.guards_get fun s => ?_
  cases s.session with
  | some session => exact Keeping.guards_pure _
  | none =>
    refine Keeping.guards_bind (Keeping.guards_lift h) fun _ => ?_
    exact Keeping.guards_bind (Keeping.guards_modify _) fun _ => Keeping.guards_pure _

omit [TimeScale τ] in
/-- Without the version of the load balancer the run goes on. -/
theorem guards_withBalancer (m : ClusterMetadata) :
    (withBalancer m : Action τ ClusterMetadata).Guards .free Standing.free.Well := by
  refine Action.guards_attempt_bind Discovery.guards_loadBalancerVersion fun e t ht => ?_
  rw [ht]
  cases e with
  | ok _ => exact Action.guards_log_bind (Action.guards_pure (Standing.free.well_ok _))
  | error _ => exact Action.guards_log_bind (Action.guards_pure (Standing.free.well_ok _))

omit [TimeScale τ] in
theorem guards_connect (h : p.team.connect.Guards .free Standing.free.Well) :
    p.connect.Guards .free .free := by
  refine Keeping.guards_bind (guards_session h) fun _ => ?_
  refine Keeping.guards_bind (Keeping.guards_lift Discovery.guards_metadata) fun _ => ?_
  refine Keeping.guards_bind (Keeping.guards_lift (Discovery.guards_metricsServer _ _)) fun _ => ?_
  refine Keeping.guards_bind (Keeping.guards_lift (guards_withBalancer _)) fun _ => ?_
  exact Keeping.guards_bind (guards_reach _) fun _ => Keeping.guards_pure _

/-! ### Tuning and comparing -/

omit [TimeScale τ] in
theorem asks_tune (h : ∀ profile, (p.team.tune profile).Asks P) (c : TestCase) :
    (p.tune c).Asks P := by
  refine Keeping.asks_bind Keeping.asks_get fun s => ?_
  split
  · exact Keeping.asks_bind (Keeping.asks_lift (h _)) fun _ => Keeping.asks_modify _
  · exact Keeping.asks_pure _

omit [TimeScale τ] in
theorem guards_tune (h : ∀ profile, (p.team.tune profile).Guards .free Standing.free.Well)
    (c : TestCase) : (p.tune c).Guards .free .free := by
  refine Keeping.guards_bind Keeping.guards_get fun s => ?_
  split
  · exact Keeping.guards_bind (Keeping.guards_lift (h _)) fun _ => Keeping.guards_modify _
  · exact Keeping.guards_pure _

omit [TimeScale τ] in
theorem asks_compare_of (h : ∀ comparator, p.team.compare = some comparator →
    ∀ c results, (comparator c results).Asks P) (c : TestCase) (results : List Result) :
    (p.compare c results).Asks P := by
  unfold compare
  cases hc : p.team.compare with
  | none => exact Keeping.asks_pure _
  | some comparator =>
    refine Keeping.asks_bind (Keeping.asks_lift (h comparator hc c results)) fun verdict => ?_
    cases verdict with
    | true => exact Keeping.asks_pure _
    | false =>
      refine Keeping.asks_bind (Keeping.asks_lift (Action.asks_log _ _)) fun _ => ?_
      exact Keeping.asks_modify _

/-- Without a comparator nothing is done; the one of the surroundings is asked once, and a verdict
of any kind lets the run go on. -/
theorem compare_leaves (hp : p.team.Observed) {c : TestCase} {results : List Result}
    {r : Except Failure Unit} (h : (p.compare c results).Leaves s evs r s') :
    (p.team.compare = none ∧ evs = [] ∧ r = .ok ()) ∨
      ∃ (reply : Except Failure Bool) (time : τ) (lines : List (Event τ)),
        p.team.compare = some Outside.compare ∧
        evs = .asked (.compare c results) reply time :: lines ∧
        (∀ e ∈ lines, e.Asks fun _ => False) ∧ r = reply.map fun _ => () := by
  unfold compare at h
  rcases hp.compare with hc | hc
  · rw [hc] at h
    obtain ⟨rfl, rfl, -⟩ := Keeping.leaves_pure.mp h
    exact .inl ⟨hc, rfl, rfl⟩
  · rw [hc] at h
    right
    rcases Keeping.leaves_lift_bind.mp h with ⟨x, hx, rfl, -⟩ | ⟨verdict, _, rest, hv, h₁, rfl⟩
    · obtain ⟨time, rfl⟩ := Outside.compare_leaves hx
      exact ⟨.error x, time, [], hc, rfl, fun e he => absurd he List.not_mem_nil, rfl⟩
    · obtain ⟨time, rfl⟩ := Outside.compare_leaves hv
      refine ⟨.ok verdict, time, rest, hc, rfl, ?_⟩
      cases verdict with
      | true =>
        obtain ⟨rfl, rfl, -⟩ := Keeping.leaves_pure.mp h₁
        exact ⟨fun e he => absurd he List.not_mem_nil, rfl⟩
      | false =>
        obtain ⟨_, h₂, rfl⟩ := Keeping.leaves_log_bind.mp h₁
        obtain ⟨rfl, rfl, -⟩ := Keeping.leaves_modify.mp h₂
        refine ⟨fun e he => ?_, rfl⟩
        obtain rfl := List.mem_singleton.mp he
        trivial

theorem asks_compare (hp : p.team.Observed) (c : TestCase) (results : List Result) :
    (p.compare c results).Asks Question.Follows := by
  intro s evs r s' h e he
  rcases compare_leaves hp h with ⟨-, rfl, -⟩ | ⟨reply, time, lines, -, rfl, hlines, -⟩
  · exact absurd he List.not_mem_nil
  · rcases List.mem_cons.mp he with rfl | he
    · exact .inl ⟨c, results, rfl⟩
    · exact (hlines e he).mono fun _ h => h.elim

theorem guards_compare (hp : p.team.Observed) (c : TestCase) (results : List Result) :
    (p.compare c results).Guards .free .free := by
  unfold compare
  rcases hp.compare with hc | hc
  · rw [hc]
    exact Keeping.guards_pure _
  · rw [hc]
    refine Keeping.guards_bind (Keeping.guards_lift (Outside.guards_compare c results)) fun v => ?_
    cases v with
    | true => exact Keeping.guards_pure _
    | false =>
      refine Keeping.guards_bind (Keeping.guards_lift (Action.guards_log _ _ _)) fun _ => ?_
      exact Keeping.guards_modify _

/-! ### Test cases -/

theorem asks_reconcile_of {ns : String} (hserver : ∀ q, q.Handles ns Assets.serverName → P q)
    (hclient : ∀ q, q.Handles ns Assets.clientName → P q) (pace : Pace τ) (timeout : τ)
    (servers clients : Int) : (reconcile pace timeout ns servers clients).Asks P := by
  refine Action.asks_bind ((asks_scaleTo _ _ _ _ _).mono hserver) fun _ => ?_
  refine Action.asks_bind ((asks_scaleTo _ _ _ _ _).mono hclient) fun _ => ?_
  exact Action.asks_pure _

theorem asks_reconcile (pace : Pace τ) (timeout : τ) (ns : String) (servers clients : Int) :
    (reconcile pace timeout ns servers clients).Asks (Question.Prepares ns) :=
  asks_reconcile_of (fun _ => .inl) (fun _ h => .inr (.inl h)) pace timeout servers clients

section
variable (hteam : p.team.AsksOnly P) (hhandles : ∀ ns name q, q.Handles ns name → P q)
  (hstores : ∀ q, q.Stores → P q) (metadata : ClusterMetadata) (metrics : MetricsServer)
include hteam hhandles hstores

/-- What a test case asks for: what its helpers ask for, and what scales deployments and stores
documents. -/
theorem asks_runCase (c : TestCase) : (p.runCase metadata metrics c).Asks P := by
  refine Keeping.asks_bind (Keeping.asks_lift
    (asks_reconcile_of (hhandles _ _) (hhandles _ _) _ _ _ _)) fun _ => ?_
  refine Keeping.asks_bind (asks_tune hteam.tune c) fun _ => ?_
  refine Keeping.asks_bind (Keeping.asks_lift (hteam.drive _ _ _ _)) fun results => ?_
  split
  · exact Keeping.asks_lift (Action.asks_log _ _)
  · refine Keeping.asks_bind (asks_compare_of hteam.compare c results) fun _ => ?_
    exact asks_withSink ((Sink.asks_accept _).mono hstores)

theorem asks_runCases (number : Nat) (cases : List TestCase) :
    (p.runCases metadata metrics number cases).Asks P := by
  induction cases generalizing number with
  | nil => exact Keeping.asks_pure _
  | cons c rest ih =>
    refine Keeping.asks_bind (Keeping.asks_lift (Action.asks_log _ _)) fun _ => ?_
    refine Keeping.asks_bind (Keeping.asks_lift (Action.asks_log _ _)) fun _ => ?_
    exact Keeping.asks_bind (asks_runCase hteam hhandles hstores metadata metrics _)
      fun _ => ih (number + 1)

end

theorem Prepared.asks (hp : p.team.Observed) {c : TestCase} (h : Prepared p c s evs s') :
    ∀ e ∈ evs, e.Asks (Question.Prepares p.settings.ns) := by
  obtain ⟨hscaling, htuning⟩ := h
  intro e he
  rcases List.mem_append.mp he with he | he
  · exact asks_reconcile _ _ _ _ _ _ _ hscaling e he
  · exact (asks_tune hp.asks_tune c _ _ _ _ htuning e he).mono fun _ h => .inr (.inr h)

/-- **Every attempt has one shape**: what prepares the test case, and unless that failed one
measurement and what follows it. -/
theorem Attempt.shape (hp : p.team.Observed) {metadata : ClusterMetadata} {metrics : MetricsServer}
    {c : TestCase} {r : Except Failure Unit} (h : Attempt p metadata metrics c s evs r s') :
    ∃ prelude : List (Event τ), (∀ e ∈ prelude, e.Asks (Question.Prepares p.settings.ns)) ∧
      ((evs = prelude ∧ ∃ x, r = .error x) ∨
        ∃ (reply : Except Failure (List Result)) (time : τ) (after : List (Event τ))
            (s₁ : RunState),
          Prepared p c s prelude s₁ ∧
          evs = prelude ++ .asked (.drive c metadata p.settings.podMetrics) reply time :: after ∧
          ∀ e ∈ after, e.Asks Question.Follows) := by
  have hjudge : ∀ results, (p.compare c results).Asks Question.Follows := asks_compare hp c
  cases h with
  | unscaled hscaling =>
    refine ⟨evs, asks_reconcile _ _ _ _ _ _ _ hscaling, .inl ⟨rfl, _, rfl⟩⟩
  | @untuned scaling tuning x _ hscaling htuning =>
    refine ⟨scaling ++ tuning, fun e he => ?_, .inl ⟨rfl, x, rfl⟩⟩
    rcases List.mem_append.mp he with he | he
    · exact asks_reconcile _ _ _ _ _ _ _ hscaling e he
    · exact (asks_tune hp.asks_tune c _ _ _ _ htuning e he).mono fun _ h => .inr (.inr h)
  | unmeasured hprelude hdriving =>
    obtain ⟨time, rfl⟩ := hp.drive_leaves hdriving
    exact ⟨_, hprelude.asks hp, .inr ⟨_, time, [], _, hprelude, rfl,
      fun e he => absurd he List.not_mem_nil⟩⟩
  | warm hprelude hdriving hwarm =>
    obtain ⟨time, rfl⟩ := hp.drive_leaves hdriving
    refine ⟨_, hprelude.asks hp, .inr ⟨_, time, _, _, hprelude, rfl, fun e he => ?_⟩⟩
    obtain rfl := List.mem_singleton.mp he
    trivial
  | uncompared hprelude hdriving hwarm hjudging =>
    obtain ⟨time, rfl⟩ := hp.drive_leaves hdriving
    exact ⟨_, hprelude.asks hp, .inr ⟨_, time, _, _, hprelude, rfl, hjudge _ _ _ _ _ hjudging⟩⟩
  | @handed _ _ judging storing _ _ _ _ _ hprelude hdriving hwarm hjudging hstoring =>
    obtain ⟨time, rfl⟩ := hp.drive_leaves hdriving
    refine ⟨_, hprelude.asks hp, .inr ⟨_, time, judging ++ storing, _, hprelude, rfl,
      fun e he => ?_⟩⟩
    rcases List.mem_append.mp he with he | he
    · exact hjudge _ _ _ _ _ hjudging e he
    · exact (asks_withSink (Sink.asks_accept _) _ _ _ _ hstoring e he).mono fun _ => .inr

theorem guards_runCase (hp : p.team.Observed) (metadata : ClusterMetadata)
    (metrics : MetricsServer) (c : TestCase) :
    (p.runCase metadata metrics c).Guards .free .free := by
  refine Keeping.guards_bind (Keeping.guards_lift (guards_reconcile _ _ _ _ _)) fun _ => ?_
  refine Keeping.guards_bind (guards_tune hp.guards_tune c) fun _ => ?_
  have hdrive : (p.team.drive c metadata (some metrics) p.settings.podMetrics).Guards .free
      Standing.free.Well := by
    rw [hp.drive]
    exact Outside.guards_drive c metadata (some metrics) p.settings.podMetrics
  refine Keeping.guards_bind (Keeping.guards_lift hdrive) fun results => ?_
  split
  · exact Keeping.guards_lift (Action.guards_log _ _ _)
  · refine Keeping.guards_bind (guards_compare hp c results) fun _ => ?_
    exact guards_withSink (Sink.guards_accept _)

theorem guards_runCases (hp : p.team.Observed) (metadata : ClusterMetadata)
    (metrics : MetricsServer) (number : Nat) (cases : List TestCase) :
    (p.runCases metadata metrics number cases).Guards .free .free := by
  induction cases generalizing number with
  | nil => exact Keeping.guards_pure _
  | cons c rest ih =>
    refine Keeping.guards_bind (Keeping.guards_lift (Action.guards_log _ _ _)) fun _ => ?_
    refine Keeping.guards_bind (Keeping.guards_lift (Action.guards_log _ _ _)) fun _ => ?_
    exact Keeping.guards_bind (guards_runCase hp metadata metrics _) fun _ => ih (number + 1)

/-! ### Deploying, removing and closing -/

omit [TimeScale τ] in
theorem asks_deployAssets : p.deployAssets.Asks (Question.Creates (Assets.all p.settings.ns)) := by
  refine Keeping.asks_bind (Keeping.asks_lift (asks_deploy _)) fun _ => ?_
  exact Keeping.asks_bind (Keeping.asks_modify _) fun _ => asks_reach _

omit [TimeScale τ] in
theorem guards_deployAssets : p.deployAssets.Guards .free .free := by
  refine Keeping.guards_bind (Keeping.guards_lift (guards_deploy _)) fun _ => ?_
  exact Keeping.guards_bind (Keeping.guards_modify _) fun _ => guards_reach _

theorem asks_teardown : p.teardown.Asks (Question.Removes fun _ => True) := by
  refine Keeping.asks_bind Keeping.asks_get fun s => ?_
  split
  · exact Keeping.asks_pure _
  · refine Keeping.asks_bind (Keeping.asks_modify _) fun _ => ?_
    split
    · exact Keeping.asks_lift (asks_removeAssets _ _ _ _)
    · exact Keeping.asks_bind (Keeping.asks_lift (Action.asks_log _ _))
        fun _ => Keeping.asks_throw _

theorem guards_teardown : p.teardown.Guards .free .free := by
  refine Keeping.guards_bind Keeping.guards_get fun s => ?_
  split
  · exact Keeping.guards_pure _
  · refine Keeping.guards_bind (Keeping.guards_modify _) fun _ => ?_
    split
    · exact Keeping.guards_lift (guards_removeAssets _ _ _ _)
    · refine Keeping.guards_bind (Keeping.guards_lift (Action.guards_log _ _ _)) fun _ => ?_
      exact Keeping.guards_throw _

/-- Closing a run stores documents and removes objects. -/
theorem Closing.asks {r : Except Failure Unit} (h : Closing p s evs r s') :
    ∀ e ∈ evs, e.Asks fun q => q.Stores ∨ q.Removes fun _ => True := by
  have hstore : ∀ {storing : List (Event τ)} {r : Except Failure Unit} {s s' : RunState},
      (withSink Sink.close).Leaves s storing r s' →
        ∀ e ∈ storing, e.Asks fun q => q.Stores ∨ q.Removes fun _ => True := fun h e he =>
    (asks_withSink Sink.asks_close _ _ _ _ h e he).mono fun _ => .inl
  have hremove : ∀ {removing : List (Event τ)} {r : Except Failure Unit} {s s' : RunState},
      p.teardown.Leaves s removing r s' →
        ∀ e ∈ removing, e.Asks fun q => q.Stores ∨ q.Removes fun _ => True := fun h e he =>
    (asks_teardown _ _ _ _ h e he).mono fun _ => .inr
  intro e he
  cases h with
  | unstored hstoring => exact hstore hstoring e he
  | kept _ hstoring => exact hstore hstoring e he
  | unremoved _ hstoring hremoving =>
    rcases List.mem_append.mp he with he | he
    · exact hstore hstoring e he
    · exact hremove hremoving e he
  | removed _ hstoring hremoving =>
    rcases List.mem_append.mp he with he | he
    · exact hstore hstoring e he
    · exact hremove hremoving e he

theorem asks_wrapUp : p.wrapUp.Asks fun q => q.Stores ∨ q.Removes fun _ => True :=
  fun _ _ _ _ h => (wrapUp_leaves h).asks

theorem guards_wrapUp : p.wrapUp.Guards .free .free := by
  refine Keeping.guards_bind (guards_withSink Sink.guards_close) fun _ => ?_
  refine Keeping.guards_bind (guards_reach _) fun _ => ?_
  have hend : ∀ u : Unit, Keeping.Guards .free (do
      reach .done
      if !(← get).passed then throw .comparison : Stage τ Unit) .free := fun _ => by
    refine Keeping.guards_bind (guards_reach _) fun _ => ?_
    refine Keeping.guards_bind Keeping.guards_get fun s => ?_
    split
    · exact Keeping.guards_throw _
    · exact Keeping.guards_pure _
  split
  · refine Keeping.guards_bind guards_teardown fun _ => ?_
    exact Keeping.guards_bind (guards_reach _) hend
  · exact hend ()

/-- **A start that ends well meets all its obligations**, and at no time does it change anything
while it owes something. -/
theorem guards_start (hp : p.team.Observed) : p.start.Guards .free .free := by
  refine Keeping.guards_bind (guards_connect hp.guards_connect) fun (metadata, metrics) => ?_
  refine Keeping.guards_bind guards_deployAssets fun _ => ?_
  refine Keeping.guards_bind (guards_reach _) fun _ => ?_
  exact Keeping.guards_bind (guards_runCases hp metadata metrics 1 p.cases) fun _ => guards_wrapUp

end Plan
end IngressBench
