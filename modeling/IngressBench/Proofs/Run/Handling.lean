import IngressBench.Proofs.Run.Changes
import IngressBench.Proofs.Run.Spares
import IngressBench.Proofs.Signals.Helpers

/-!
How a run handles its objects. Only the deployment creates objects and only the removal at the end
deletes them; connecting and the test cases do neither, whatever the helpers of a usual team answer.
So a start falls into four rows: what comes before the deployment, the deployment, what comes after
it, and the removal, if there is one (`start_handles`).
-/
namespace IngressBench

variable {τ : Type}

/-! ### Passive questions -/

theorem untouched_of_learns {evs : List (Event τ)} (h : ∀ e ∈ evs, e.Asks Question.Learns) :
    Untouched evs :=
  untouched_of_passive fun e he => (h e he).mono passive_of_learns

variable [TimeScale τ]

section
variable {P : Question → Prop} {team : Team τ}

/-- A driver of a usual team asks what its own work needs, or one question to the surroundings. -/
theorem Team.Usual.asks_drive (h : team.Usual) (hgauges : ∀ q, q.Gauges → P q)
    (hdrive : ∀ c metadata podMetrics, P (.drive c metadata podMetrics)) (c : TestCase)
    (metadata : ClusterMetadata) (metrics : Option MetricsServer) (podMetrics : Bool) :
    (team.drive c metadata metrics podMetrics).Asks P := by
  rcases h.drive with hd | ⟨ns, hd⟩
  · rw [hd]
    exact Outside.asks_drive (hdrive ..)
  · rw [hd]
    exact (Load.asks_run ns c metadata metrics podMetrics).mono hgauges

theorem Team.Usual.asks_tune (h : team.Usual) (happlies : ∀ q, q.Applies → P q)
    (htune : ∀ profile, P (.tune profile)) (profile : String) : (team.tune profile).Asks P := by
  rcases h.tune with ht | ⟨pace, timeout, ht⟩
  · rw [ht]
    exact Outside.asks_tune (htune profile)
  · rw [ht]
    exact (Tuning.asks_apply pace timeout profile).mono happlies

end

/-- No helper of a usual team creates or deletes an object. -/
theorem Team.Usual.passive {team : Team τ} (h : team.Usual) : team.AsksOnly Question.Passive where
  connect := (Team.asks_connection h.connect).mono passive_of_learns
  drive := h.asks_drive passive_of_gauges fun _ _ _ => trivial
  tune := h.asks_tune (fun q hq => passive_of_tunes q hq.tunes) fun _ => trivial
  compare := Team.asks_comparator h.compare fun _ _ => trivial

namespace Plan

variable {P : Question → Prop} {p : Plan τ} {s s' : RunState} {evs : List (Event τ)}
  {r : Except Failure Unit} {metadata : ClusterMetadata} {metrics : MetricsServer}

/-! ### Test cases -/

/-- What an attempt asks for: what its helpers ask for, and what prepares and follows it. -/
theorem Attempt.asks_of (hteam : p.team.AsksOnly P) (hhandles : ∀ ns name q, q.Handles ns name → P q)
    (hstores : ∀ q, q.Stores → P q) {c : TestCase} (h : Attempt p metadata metrics c s evs r s') :
    ∀ e ∈ evs, e.Asks P := by
  have hscale := asks_reconcile_of (hhandles p.settings.ns _) (hhandles p.settings.ns _)
    p.limits.pace p.limits.readiness c.serverReplicas c.concurrency
  have htune := asks_tune hteam.tune c
  have hdrive := hteam.drive c metadata (some metrics) p.settings.podMetrics
  have hjudge := asks_compare_of hteam.compare c
  have hprepared : ∀ {prelude : List (Event τ)} {s₁ : RunState}, Prepared p c s prelude s₁ →
      ∀ e ∈ prelude, e.Asks P := fun ⟨hscaling, htuning⟩ =>
    List.forall_mem_append.mpr ⟨hscale _ _ hscaling, htune _ _ _ _ htuning⟩
  cases h with
  | unscaled hscaling => exact hscale _ _ hscaling
  | untuned hscaling htuning =>
    exact List.forall_mem_append.mpr ⟨hscale _ _ hscaling, htune _ _ _ _ htuning⟩
  | unmeasured hprelude hdriving =>
    exact List.forall_mem_append.mpr ⟨hprepared hprelude, hdrive _ _ hdriving⟩
  | warm hprelude hdriving hwarm =>
    simp only [List.forall_mem_append, List.forall_mem_singleton]
    exact ⟨hprepared hprelude, hdrive _ _ hdriving, trivial⟩
  | uncompared hprelude hdriving hwarm hjudging =>
    simp only [List.forall_mem_append]
    exact ⟨hprepared hprelude, hdrive _ _ hdriving, hjudge _ _ _ _ _ hjudging⟩
  | handed hprelude hdriving hwarm hjudging hstoring =>
    have hstore := asks_withSink ((Sink.asks_accept _).mono hstores) _ _ _ _ hstoring
    simp only [List.forall_mem_append]
    exact ⟨hprepared hprelude, hdrive _ _ hdriving, hjudge _ _ _ _ _ hjudging, hstore⟩

theorem Rounds.asks_of (hteam : p.team.AsksOnly P) (hhandles : ∀ ns name q, q.Handles ns name → P q)
    (hstores : ∀ q, q.Stores → P q) {done : List TestCase}
    (h : Rounds p metadata metrics done s evs s') : ∀ e ∈ evs, e.Asks P := by
  induction h with
  | none => simp
  | more first others ih =>
    simp only [List.forall_mem_cons, List.forall_mem_append]
    exact ⟨trivial, trivial, first.asks_of hteam hhandles hstores, ih⟩

/-! ### Starts -/

/-- What a start does with objects: it fails before it deploys them, or while it does; it deploys them
and leaves them where they are, for a failure or because they are to be kept; or it removes them at
its end. -/
inductive Handling (p : Plan τ) : List (Event τ) → Except Failure Unit → RunState → Prop
  | unconnected {evs : List (Event τ)} {x : Failure} {s' : RunState}
      (hlearns : ∀ e ∈ evs, e.Asks Question.Learns) (hphase : s'.phase = .init) :
      Handling p evs (.error x) s'
  | undeployed {before deploying : List (Event τ)} {x : Failure} {s' : RunState}
      (hlearns : ∀ e ∈ before, e.Asks Question.Learns)
      (hdeploying : (deploy p.settings.ns).Leaves deploying (.error x))
      (hphase : s'.phase = .connected) :
      Handling p (before ++ deploying) (.error x) s'
  | kept {before deploying after : List (Event τ)} {existed : Bool} {r : Except Failure Unit}
      {s' : RunState} (hbefore : Untouched before)
      (hdeploying : (deploy p.settings.ns).Leaves deploying (.ok existed))
      (hafter : Untouched after) (hdeployed : s'.phase.isDeployed = true)
      (hkeep : p.cleanup = false ∨ (∃ x, r = .error x) ∧ s'.phase.isOpen = true) :
      Handling p (before ++ (deploying ++ after)) r s'
  | removed {before deploying after removing : List (Event τ)} {existed : Bool}
      {r ended : Except Failure Unit} {s' : RunState} (hclean : p.cleanup = true)
      (hbefore : Untouched before)
      (hdeploying : (deploy p.settings.ns).Leaves deploying (.ok existed))
      (hafter : Untouched after)
      (hremoving : (removeAssets p.limits.pace p.limits.cleanup existed p.settings.ns).Leaves
        removing ended)
      (hphase : s'.phase = .indexed ∧ (∃ x, ended = .error x) ∨ s'.phase = .done ∧ ended = .ok ()) :
      Handling p (before ++ (deploying ++ (after ++ removing))) r s'

/-- What closing does with objects. -/
theorem Closing.handles {before deploying finished : List (Event τ)} {existed : Bool}
    (h : Closing p s evs r s') (hbefore : Untouched before)
    (hdeploying : (deploy p.settings.ns).Leaves deploying (.ok existed))
    (hfinished : Untouched finished) (hexisted : s.existed = existed)
    (htorn : s.torndown = false) (hsession : s.session.isSome = true)
    (hphase : s.phase = .running) :
    Handling p (before ++ (deploying ++ (finished ++ evs))) r s' := by
  have hstore : ∀ {storing : List (Event τ)} {r : Except Failure Unit} {s₁ : RunState},
      (withSink Sink.close).Leaves s storing r s₁ → Untouched (finished ++ storing) ∧ Along s s₁ :=
    fun h => ⟨hfinished.append (untouched_of_passive
      (asks_withSink (Sink.asks_close.mono passive_of_stores) _ _ _ _ h)),
        keeps_withSink _ _ _ _ _ h⟩
  have hremove : ∀ {removing : List (Event τ)} {r : Except Failure Unit} {s₁ s₂ : RunState},
      Along s s₁ → p.teardown.Leaves { s₁ with phase := .indexed } removing r s₂ →
        (removeAssets p.limits.pace p.limits.cleanup existed p.settings.ns).Leaves removing r ∧
          s₂.phase = .indexed := by
    intro removing r s₁ s₂ halong h
    obtain ⟨_, _, _, rfl⟩ := halong
    have hremoving := teardown_removes h htorn hsession
    obtain ⟨rfl, -⟩ := teardown_leaves h
    rw [← hexisted]
    exact ⟨hremoving, rfl⟩
  cases h with
  | unstored hstoring =>
    obtain ⟨hafter, halong⟩ := hstore hstoring
    have hrunning : s'.phase = .running := halong.phase_eq.trans hphase
    exact .kept hbefore hdeploying hafter (by rw [hrunning]; rfl)
      (.inr ⟨⟨_, rfl⟩, by rw [hrunning]; rfl⟩)
  | kept hkeep hstoring => exact .kept hbefore hdeploying (hstore hstoring).1 rfl (.inl hkeep)
  | unremoved hclean hstoring hremoving =>
    obtain ⟨hafter, halong⟩ := hstore hstoring
    obtain ⟨hremoved, hphase⟩ := hremove halong hremoving
    rw [← List.append_assoc finished]
    exact .removed hclean hbefore hdeploying hafter hremoved (.inl ⟨hphase, _, rfl⟩)
  | removed hclean hstoring hremoving =>
    obtain ⟨hafter, halong⟩ := hstore hstoring
    rw [← List.append_assoc finished]
    exact .removed hclean hbefore hdeploying hafter (hremove halong hremoving).1 (.inr ⟨rfl, rfl⟩)

/-- **A start creates objects only when it deploys, and deletes them only at its end.** -/
theorem start_handles (hp : p.team.Usual) {session : Option Session} {sink : Option Sink}
    (h : p.start.Leaves (.fresh session sink) evs r s') : Handling p evs r s' := by
  have hconnect : ∀ {connecting : List (Event τ)}
      {learnt : Except Failure (ClusterMetadata × MetricsServer)} {s₁ : RunState},
      p.connect.Leaves (.fresh session sink) connecting learnt s₁ →
        ∀ e ∈ connecting, e.Asks Question.Learns := fun h => asks_connect (Team.asks_connection hp.connect) _ _ _ _ h
  cases start_course h with
  | unconnected hconnecting =>
    obtain ⟨session, -, ⟨-, rfl⟩ | ⟨⟨_, hv⟩, -⟩⟩ := connect_leaves hconnecting
    · exact .unconnected (hconnect hconnecting) rfl
    · cases hv
  | undeployed hconnecting hdeploying =>
    obtain ⟨session, -, ⟨⟨_, hx⟩, -⟩ | ⟨-, -, rfl⟩⟩ := connect_leaves hconnecting
    · cases hx
    obtain ⟨x, hx, hdeploy, rfl⟩ | ⟨_, hr, -⟩ := deployAssets_leaves hdeploying
    · cases hx
      exact .undeployed (hconnect hconnecting) hdeploy rfl
    · cases hr
  | broken hconnecting hdeploying hcases hfinished hbroken =>
    obtain ⟨_, hr, -⟩ | ⟨existed, -, hdeploy, rfl⟩ := deployAssets_leaves hdeploying
    · cases hr
    have hafter := hfinished.asks_of hp.passive passive_of_handles passive_of_stores
    have hlast := hbroken.asks_of hp.passive passive_of_handles passive_of_stores
    have hphase := (hfinished.along.trans hbroken.along).phase_eq
    refine .kept (untouched_of_learns (hconnect hconnecting)) hdeploy (untouched_of_passive ?_)
      (by rw [hphase]; rfl) (.inr ⟨⟨_, rfl⟩, by rw [hphase]; rfl⟩)
    simp only [List.forall_mem_append, List.forall_mem_cons]
    exact ⟨hafter, trivial, trivial, hlast⟩
  | closed hconnecting hdeploying hfinished hclosing =>
    obtain ⟨session, -, ⟨⟨_, hx⟩, -⟩ | ⟨-, hsession, rfl⟩⟩ := connect_leaves hconnecting
    · cases hx
    obtain ⟨_, hr, -⟩ | ⟨existed, -, hdeploy, rfl⟩ := deployAssets_leaves hdeploying
    · cases hr
    have hafter := hfinished.asks_of hp.passive passive_of_handles passive_of_stores
    obtain ⟨_, _, _, rfl⟩ := hfinished.along
    exact (wrapUp_leaves hclosing).handles (untouched_of_learns (hconnect hconnecting)) hdeploy
      (untouched_of_passive hafter) rfl rfl hsession rfl

end Plan
end IngressBench
