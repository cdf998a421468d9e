import IngressBench.Proofs.Run.Diary
import IngressBench.Proofs.Run.Handling
import IngressBench.Proofs.Run.Sample
import IngressBench.Proofs.Run.Signals
import IngressBench.Proofs.Stop

/-!
The phase of a run tells how far it came. The first parts of a start (`Plan.learn`, `Plan.opening`,
`Plan.measuring`, `Plan.removing`) are starts that end early; a start stays in the phase of the first
one of them that fails (`start_halts`). So the phase in which a start ends tells which part of it
failed, and what it did (`start_tells_phase`).

A helper that ends the run with the verdict of a failed comparison leaves it running
(`verdict_of_driver_runs`).
-/
namespace IngressBench.Plan

variable {τ σ α β : Type} [TimeScale τ]

/-! ### First parts of a start -/

/-- Making the session, and learning about the cluster and its metrics server. -/
def learn (p : Plan τ) : Stage τ (ClusterMetadata × MetricsServer) := do
  let session ← p.session
  let metadata ← Keeping.lift Discovery.metadata
  let metrics ← Keeping.lift (Discovery.metricsServer session p.settings)
  return (metadata, metrics)

/-- Connecting and deploying. -/
def opening (p : Plan τ) : Stage τ (ClusterMetadata × MetricsServer) := do
  let learnt ← p.connect
  p.deployAssets
  return learnt

/-- A start up to the end of its test cases, with its sink closed. -/
def measuring (p : Plan τ) : Stage τ Unit := do
  let (metadata, metrics) ← p.opening
  reach .running
  p.runCases metadata metrics 1 p.cases
  withSink Sink.close

/-- A start up to the removal of its objects. -/
def removing (p : Plan τ) : Stage τ Unit := do
  p.measuring
  reach .indexed
  if p.cleanup then p.teardown

/-- The end of a start that has not failed so far. -/
def ending (p : Plan τ) : Stage τ Unit := do
  if p.cleanup then reach .cleanedUp
  reach .done
  if !(← get).passed then throw .comparison

omit [TimeScale τ] in
theorem connect_eq (p : Plan τ) : p.connect = (do
    let (metadata, metrics) ← p.learn
    let metadata ← Keeping.lift (withBalancer metadata)
    reach .connected
    return (metadata, metrics)) := by
  simp [connect, learn, bind_assoc]

theorem start_eq (p : Plan τ) : p.start = (do p.removing; p.ending) := by
  cases hclean : p.cleanup <;>
    simp [start, removing, measuring, opening, wrapUp, ending, hclean, bind_assoc]

/-! ### Parts in a world -/

section
variable {w : World τ σ} {h h' : History τ σ} {s s' : RunState} {m : Stage τ α}

/-- A stage that is begun so fails. -/
def Fails (w : World τ σ) (h : History τ σ) (s : RunState) (m : Stage τ α) : Prop :=
  ∃ x, (w.run (m.perform s) h).1.1 = .error x

/-- A stage that is begun so fails, or ends well. -/
theorem run_cases (w : World τ σ) (h : History τ σ) (s : RunState) (m : Stage τ α) :
    (∃ x s' h', w.run (m.perform s) h = ((.error x, s'), h')) ∨
      ∃ v s' h', w.run (m.perform s) h = ((.ok v, s'), h') := by
  rcases hr : w.run (m.perform s) h with ⟨⟨outcome, s'⟩, h'⟩
  cases outcome with
  | error x => exact .inl ⟨x, s', h', rfl⟩
  | ok v => exact .inr ⟨v, s', h', rfl⟩

theorem leaves_of_run {r : Except Failure α} (hm : w.run (m.perform s) h = ((r, s'), h')) :
    ∃ evs, m.Leaves s evs r s' := by
  obtain ⟨evs, hleaves, -⟩ := w.run_leaves (m.perform s) h
  rw [hm] at hleaves
  exact ⟨evs, hleaves⟩

end

/-! ### Phases of the parts -/

section
variable {p : Plan τ} {s s' : RunState} {evs : List (Event τ)}

omit [TimeScale τ] in
/-- The version of the load balancer is told, or left as it is; that never fails. -/
theorem withBalancer_leaves {m : ClusterMetadata} {r : Except Failure ClusterMetadata}
    (h : (withBalancer m).Leaves evs r) :
    ∃ version, r = .ok { m with haproxyVersion := version } := by
  obtain ⟨e, first, rest, -, h₁, rfl⟩ := Action.leaves_attempt_bind.mp h
  cases e with
  | ok version =>
    obtain ⟨_, h₂, rfl⟩ := Action.leaves_log_bind.mp h₁
    exact ⟨some version, (Action.leaves_pure.mp h₂).2⟩
  | error x =>
    obtain ⟨_, h₂, rfl⟩ := Action.leaves_log_bind.mp h₁
    exact ⟨m.haproxyVersion, (Action.leaves_pure.mp h₂).2⟩

omit [TimeScale τ] in
/-- After everything has been learnt, connecting does not fail. -/
theorem connected_leaves {metadata : ClusterMetadata} {metrics : MetricsServer}
    {r : Except Failure (ClusterMetadata × MetricsServer)}
    (h : Keeping.Leaves (do
      let metadata ← Keeping.lift (withBalancer metadata)
      reach .connected
      return (metadata, metrics)) s evs r s') : (∃ v, r = .ok v) ∧ s'.phase = .connected := by
  rcases Keeping.leaves_lift_bind.mp h with ⟨x, hx, -⟩ | ⟨_, _, _, -, h₁, -⟩
  · obtain ⟨version, hv⟩ := withBalancer_leaves hx
    cases hv
  · have h₂ := Keeping.leaves_modify_bind.mp h₁
    obtain ⟨-, rfl, rfl⟩ := Keeping.leaves_pure.mp h₂
    exact ⟨⟨_, rfl⟩, rfl⟩

omit [TimeScale τ] in
theorem deployed_leaves {learnt : ClusterMetadata × MetricsServer} {x : Failure}
    (h : Keeping.Leaves (do p.deployAssets; return learnt) s evs (.error x) s') :
    s'.phase = s.phase := by
  rcases Keeping.leaves_bind.mp h with ⟨x, hx, -⟩ | ⟨_, _, _, _, -, h₁, -⟩
  · obtain ⟨_, -, -, rfl⟩ | ⟨_, hr, -⟩ := deployAssets_leaves hx
    · rfl
    · cases hr
  · cases (Keeping.leaves_pure.mp h₁).2.1

theorem measured_leaves {metadata : ClusterMetadata} {metrics : MetricsServer}
    {r : Except Failure Unit}
    (h : Keeping.Leaves (do
      reach .running
      p.runCases metadata metrics 1 p.cases
      withSink Sink.close) s evs r s') : s'.phase = .running := by
  have h₁ := Keeping.leaves_modify_bind.mp h
  rcases Keeping.leaves_bind.mp h₁ with ⟨x, hx, -⟩ | ⟨_, _, _, _, hcases, hclose, -⟩
  · exact (runCases_along hx).phase_eq
  · exact ((runCases_along hcases).trans (keeps_withSink _ _ _ _ _ hclose)).phase_eq

theorem removed_leaves {r : Except Failure Unit}
    (h : Keeping.Leaves (do reach .indexed; if p.cleanup then p.teardown) s evs r s') :
    s'.phase = .indexed := by
  have h₁ := Keeping.leaves_modify_bind.mp h
  split at h₁
  · obtain ⟨rfl, -⟩ := teardown_leaves h₁
    rfl
  · rw [(Keeping.leaves_pure.mp h₁).2.2]

omit [TimeScale τ] in
theorem ended_leaves {r : Except Failure Unit} (h : p.ending.Leaves s evs r s') :
    s'.phase = .done := by
  have hend : ∀ {s : RunState}, Keeping.Leaves (do
      reach .done
      if !(← get).passed then throw .comparison) s evs r s' → s'.phase = .done := by
    intro s h
    have h₁ := Keeping.leaves_get_bind.mp (Keeping.leaves_modify_bind.mp h)
    split at h₁
    · rw [(Keeping.leaves_throw.mp h₁).2.2]
    · rw [(Keeping.leaves_pure.mp h₁).2.2]
  unfold ending at h
  split at h
  · exact hend (Keeping.leaves_modify_bind.mp h)
  · exact hend h

end

/-! ### Where a start stops -/

section
variable {w : World τ σ} {h : History τ σ} {s : RunState} {p : Plan τ} {phase : Phase}

theorem fails_of_run {m : Stage τ α} {x : Failure} {s' : RunState} {h' : History τ σ}
    (hm : w.run (m.perform s) h = ((.error x, s'), h')) : Fails w h s m :=
  ⟨x, by rw [hm]⟩

theorem not_fails_of_run {m : Stage τ α} {v : α} {s' : RunState} {h' : History τ σ}
    (hm : w.run (m.perform s) h = ((.ok v, s'), h')) : ¬ Fails w h s m := by
  rintro ⟨x, hx⟩
  rw [hm] at hx
  cases hx

/-- A stage fails if its first part does. -/
theorem Fails.bind {m : Stage τ α} {f : α → Stage τ β} (hm : Fails w h s m) :
    Fails w h s (m >>= f) := by
  rcases run_cases w h s m with ⟨x, s', h', hr⟩ | ⟨v, s', h', hr⟩
  · exact fails_of_run (World.run_perform_error hr)
  · exact absurd hm (not_fails_of_run hr)

/-- Connecting fails when learning does, whatever is told about the load balancer. -/
theorem fails_connect_iff : Fails w h s p.connect ↔ Fails w h s p.learn := by
  rw [connect_eq]
  refine ⟨fun hconnect => ?_, Fails.bind⟩
  rcases run_cases w h s p.learn with ⟨x, s', h', hr⟩ | ⟨v, s', h', hr⟩
  · exact fails_of_run hr
  · -- All that is left is to ask about the load balancer, and that cannot fail.
    obtain ⟨x, hx⟩ := hconnect
    rw [World.run_perform_ok hr] at hx
    obtain ⟨evs, hleaves⟩ := leaves_of_run (Prod.ext (Prod.ext hx rfl) rfl)
    obtain ⟨⟨_, hv⟩, -⟩ := connected_leaves hleaves
    cases hv

theorem Fails.opening (hlearn : Fails w h s p.learn) : Fails w h s p.opening :=
  (fails_connect_iff.mpr hlearn).bind

theorem Fails.measuring (hopening : Fails w h s p.opening) : Fails w h s p.measuring :=
  hopening.bind

theorem Fails.removing (hmeasuring : Fails w h s p.measuring) : Fails w h s p.removing :=
  hmeasuring.bind

/-- The phase in which a start ends, by the first part of it that fails. -/
inductive Halts (w : World τ σ) (h : History τ σ) (s : RunState) (p : Plan τ) : Phase → Prop
  | unlearnt (hlearn : Fails w h s p.learn) : Halts w h s p .init
  | undeployed (hlearn : ¬ Fails w h s p.learn) (hopening : Fails w h s p.opening) :
      Halts w h s p .connected
  | unmeasured (hopening : ¬ Fails w h s p.opening) (hmeasuring : Fails w h s p.measuring) :
      Halts w h s p .running
  | unremoved (hmeasuring : ¬ Fails w h s p.measuring) (hremoving : Fails w h s p.removing) :
      Halts w h s p .indexed
  | complete (hremoving : ¬ Fails w h s p.removing) : Halts w h s p .done

namespace Halts

theorem init_iff (hphase : Halts w h s p phase) : phase = .init ↔ Fails w h s p.learn := by
  cases hphase with
  | unlearnt hlearn => simp [hlearn]
  | undeployed hlearn hopening => simp [hlearn]
  | unmeasured hopening hmeasuring => simpa using fun hlearn => hopening hlearn.opening
  | unremoved hmeasuring hremoving => simpa using fun hlearn => hmeasuring hlearn.opening.measuring
  | complete hremoving => simpa using fun hlearn => hremoving hlearn.opening.measuring.removing

theorem running_iff (hphase : Halts w h s p phase) :
    phase = .running ↔ ¬ Fails w h s p.opening ∧ Fails w h s p.measuring := by
  cases hphase with
  | unlearnt hlearn => simp [hlearn.opening]
  | undeployed hlearn hopening => simp [hopening]
  | unmeasured hopening hmeasuring => simp [hopening, hmeasuring]
  | unremoved hmeasuring hremoving => simp [hmeasuring]
  | complete hremoving => simpa using fun _ hmeasuring => hremoving hmeasuring.removing

theorem indexed_iff (hphase : Halts w h s p phase) :
    phase = .indexed ↔ ¬ Fails w h s p.measuring ∧ Fails w h s p.removing := by
  cases hphase with
  | unlearnt hlearn => simp [hlearn.opening.measuring]
  | undeployed hlearn hopening => simp [hopening.measuring]
  | unmeasured hopening hmeasuring => simp [hmeasuring]
  | unremoved hmeasuring hremoving => simp [hmeasuring, hremoving]
  | complete hremoving => simp [hremoving]

end Halts

/-- A start that does not come beyond its opening ends before it is connected, or connected. -/
theorem opening_halts {session : Option Session} {sink : Option Sink} {x : Failure} {s' : RunState}
    {h' : History τ σ}
    (hopening : w.run (p.opening.perform (.fresh session sink)) h = ((.error x, s'), h')) :
    Halts w h (.fresh session sink) p s'.phase := by
  rcases run_cases w h (.fresh session sink) p.connect with
    ⟨y, s₁, h₁, hconnect⟩ | ⟨learnt, s₁, h₁, hconnect⟩
  · cases hopening.symm.trans (World.run_perform_error hconnect)
    obtain ⟨evs, hleaves⟩ := leaves_of_run hconnect
    obtain ⟨_, -, ⟨-, rfl⟩ | ⟨⟨_, hv⟩, -⟩⟩ := connect_leaves hleaves
    · exact .unlearnt (fails_connect_iff.mp (fails_of_run hconnect))
    · cases hv
  · have hrest := hopening.symm.trans (World.run_perform_ok hconnect)
    obtain ⟨evs, hleaves⟩ := leaves_of_run hrest.symm
    obtain ⟨evs₁, hconnecting⟩ := leaves_of_run hconnect
    obtain ⟨_, -, ⟨⟨_, hx⟩, -⟩ | ⟨-, -, rfl⟩⟩ := connect_leaves hconnecting
    · cases hx
    rw [deployed_leaves hleaves]
    exact .undeployed (fun hlearn => not_fails_of_run hconnect (fails_connect_iff.mpr hlearn))
      (fails_of_run hopening)

/-- **A start ends in the phase of the first part of it that fails.** -/
theorem start_halts (p : Plan τ) (w : World τ σ) (h : History τ σ) (session : Option Session)
    (sink : Option Sink) :
    Halts w h (.fresh session sink) p
      (w.run (p.start.perform (.fresh session sink)) h).1.2.phase := by
  rw [start_eq]
  -- From the longest first part to the shortest: a part that fails ends all longer ones, and where
  -- the next shorter part does not fail, the phase is the one that this part begins with.
  rcases run_cases w h (.fresh session sink) p.removing with
    ⟨x, s', h', hremoving⟩ | ⟨_, s', h', hremoving⟩
  · rw [World.run_perform_error hremoving]
    show Halts w h _ p s'.phase
    rcases run_cases w h (.fresh session sink) p.measuring with
      ⟨y, s₁, h₁, hmeasuring⟩ | ⟨_, s₁, h₁, hmeasuring⟩
    · cases hremoving.symm.trans (World.run_perform_error hmeasuring)
      rcases run_cases w h (.fresh session sink) p.opening with
        ⟨z, s₂, h₂, hopening⟩ | ⟨_, s₂, h₂, hopening⟩
      · cases hmeasuring.symm.trans (World.run_perform_error hopening)
        exact opening_halts hopening
      · have hrest := hmeasuring.symm.trans (World.run_perform_ok hopening)
        obtain ⟨evs, hleaves⟩ := leaves_of_run hrest.symm
        rw [measured_leaves hleaves]
        exact .unmeasured (not_fails_of_run hopening) (fails_of_run hmeasuring)
    · have hrest := hremoving.symm.trans (World.run_perform_ok hmeasuring)
      obtain ⟨evs, hleaves⟩ := leaves_of_run hrest.symm
      rw [removed_leaves hleaves]
      exact .unremoved (not_fails_of_run hmeasuring) (fails_of_run hremoving)
  · rw [World.run_perform_ok hremoving]
    obtain ⟨evs, hleaves⟩ := leaves_of_run (m := p.ending) (w := w) (h := h') (s := s') rfl
    rw [ended_leaves hleaves]
    exact .complete (not_fails_of_run hremoving)

/-- What a start does beyond its opening it does not do when the opening fails. -/
theorem start_of_opening {x : Failure} {s' : RunState} {h' : History τ σ}
    (hopening : w.run (p.opening.perform s) h = ((.error x, s'), h')) :
    w.run (p.start.perform s) h = ((.error x, s'), h') := by
  have hmeasuring : w.run (p.measuring.perform s) h = ((.error x, s'), h') :=
    World.run_perform_error hopening
  have hremoving : w.run (p.removing.perform s) h = ((.error x, s'), h') :=
    World.run_perform_error hmeasuring
  rw [start_eq]
  exact World.run_perform_error hremoving

end

/-! ### What a phase tells -/

/-- A start is interrupted in a test case, or when its sink is closed: after it has been connected,
has deployed its objects and has finished the test cases before. -/
inductive Interrupted (p : Plan τ) (s : RunState) : List (Event τ) → Except Failure Unit → Prop
  | inCase {connecting deploying finished broken : List (Event τ)} {metadata : ClusterMetadata}
      {metrics : MetricsServer} {done left : List TestCase} {c : TestCase} {heading line : String}
      {x : Failure} {s₁ s₂ s₃ s' : RunState}
      (hconnecting : p.connect.Leaves s connecting (.ok (metadata, metrics)) s₁)
      (hdeploying : p.deployAssets.Leaves s₁ deploying (.ok ()) s₂)
      (hcases : p.cases = done ++ c :: left)
      (hfinished : Rounds p metadata metrics done { s₂ with phase := .running } finished s₃)
      (hbroken : Attempt p metadata metrics (c.forRun p.run) s₃ broken (.error x) s') :
      Interrupted p s (connecting ++ (deploying ++
        (finished ++ .logged .info heading :: .logged .info line :: broken))) (.error x)
  | inSink {connecting deploying finished storing : List (Event τ)} {metadata : ClusterMetadata}
      {metrics : MetricsServer} {x : Failure} {s₁ s₂ s₃ s' : RunState}
      (hconnecting : p.connect.Leaves s connecting (.ok (metadata, metrics)) s₁)
      (hdeploying : p.deployAssets.Leaves s₁ deploying (.ok ()) s₂)
      (hfinished : Rounds p metadata metrics p.cases { s₂ with phase := .running } finished s₃)
      (hstoring : (withSink Sink.close).Leaves s₃ storing (.error x) s') :
      Interrupted p s (connecting ++ (deploying ++ (finished ++ storing))) (.error x)

/-- What the phase in which a start ends tells about it: about the events that it leaves, what it ends
with, and its last state. -/
structure TellsPhase (p : Plan τ) (w : World τ σ) (now : τ) (world : σ) (s : RunState)
    (trace : List (Event τ)) (outcome : Except Failure Unit) (final : RunState) : Prop where
  /-- The phases that are reached are the first ones of the timeline, and the last of them stays. -/
  forward : ∃ reached,
    w.trace now world (p.startNoted.perform (s, [])) = ((outcome, (final, reached)), trace) ∧
      reached <+: p.timeline ∧ final.phase = reached.getLast?.getD .init
  /-- Nothing was reached if the session could not be made, or the cluster or its metrics server not
  be learnt about; then the start has only looked. -/
  init_iff : final.phase = .init ↔ Fails w { now, state := world } s p.learn
  init_only : final.phase = .init → ∀ e ∈ trace, e.Asks Question.Learns
  /-- The start ends connected if a creation was refused, and not because the object is there; then
  it has done nothing but connecting and creating. -/
  connected_iff : final.phase = .connected ↔ Refused (creations trace)
  connected_only : final.phase = .connected →
    trace = (w.trace now world (p.opening.perform s)).2 ∧
      ∀ e ∈ trace, e.Asks (Question.Opens p.settings.ns)
  /-- It ends running if scaling, tuning, measuring, comparing or storing failed. -/
  running_iff : final.phase = .running ↔ ¬ Fails w { now, state := world } s p.opening ∧
    Fails w { now, state := world } s p.measuring
  interrupted : final.phase = .running → Interrupted p s trace outcome
  /-- It ends indexed if only the removal failed. -/
  indexed_iff : final.phase = .indexed ↔ ¬ Fails w { now, state := world } s p.measuring ∧
    Fails w { now, state := world } s p.removing
  /-- It is done if it ends well, or with the verdict that a comparison failed, unless this is the
  failure of a helper. -/
  done_iff : final.phase = .done ↔ outcome = .ok () ∨
    outcome = .error .comparison ∧ ∀ e ∈ trace, ¬ e.Raises .comparison
  /-- The version of the load balancer has no part in this: asking for it never fails. -/
  lookup : (∀ metadata evs r, (withBalancer metadata).Leaves (evs : List (Event τ)) r →
      ∃ version, r = .ok { metadata with haproxyVersion := version }) ∧
    (Fails w { now, state := world } s p.connect ↔ Fails w { now, state := world } s p.learn)

section
variable {p : Plan τ} {s s' : RunState} {evs : List (Event τ)} {r : Except Failure Unit}

theorem Course.interrupted (h : Course p s evs r s') (hs : s.phase = .init)
    (hphase : s'.phase = .running) : Interrupted p s evs r := by
  cases h with
  | unconnected hconnecting =>
    obtain ⟨_, -, ⟨-, rfl⟩ | ⟨⟨_, hv⟩, -⟩⟩ := connect_leaves hconnecting
    · cases hs.symm.trans hphase
    · cases hv
  | undeployed hconnecting hdeploying =>
    obtain ⟨_, -, ⟨⟨_, hx⟩, -⟩ | ⟨-, -, rfl⟩⟩ := connect_leaves hconnecting
    · cases hx
    obtain ⟨_, -, -, rfl⟩ | ⟨_, hr, -⟩ := deployAssets_leaves hdeploying
    · cases hphase
    · cases hr
  | broken hconnecting hdeploying hcases hfinished hbroken =>
    exact .inCase hconnecting hdeploying hcases hfinished hbroken
  | closed hconnecting hdeploying hfinished hclosing =>
    cases wrapUp_leaves hclosing with
    | unstored hstoring => exact .inSink hconnecting hdeploying hfinished hstoring
    | kept _ _ => cases hphase
    | unremoved _ _ hremoving =>
      obtain ⟨rfl, -⟩ := teardown_leaves hremoving
      cases hphase
    | removed _ _ _ => cases hphase

/-- A start that ends connected has created what it could, and a creation was refused. -/
theorem Handling.connected_iff (h : Handling p evs r s') :
    s'.phase = .connected ↔ Refused (creations evs) := by
  have hcreated : ∀ {before deploying after : List (Event τ)} {existed : Bool},
      Untouched before → (deploy p.settings.ns).Leaves deploying (.ok existed) →
        creations after = [] → ¬ Refused (creations (before ++ (deploying ++ after))) := by
    intro before deploying after existed hbefore hdeploying hafter
    simpa [hbefore.1, hafter] using (deploy_creates hdeploying).not_refused
  cases h with
  | unconnected hlearns hphase =>
    simp [hphase, (untouched_of_learns hlearns).1, Refused]
  | undeployed hlearns hdeploying hphase =>
    simpa [hphase, (untouched_of_learns hlearns).1] using deploy_refused hdeploying
  | kept hbefore hdeploying hafter hdeployed hkeep =>
    refine iff_of_false (fun hphase => ?_) (hcreated hbefore hdeploying hafter.1)
    rw [hphase] at hdeployed
    cases hdeployed
  | removed hclean hbefore hdeploying hafter hremoving hphase =>
    have hremoves := creations_of_removes (asks_removeAssets _ _ _ _ _ _ hremoving)
    refine iff_of_false (fun hconnected => ?_)
      (hcreated hbefore hdeploying (by simp [hafter.1, hremoves]))
    rcases hphase with ⟨hindexed, -⟩ | ⟨hdone, -⟩
    · cases hindexed.symm.trans hconnected
    · cases hdone.symm.trans hconnected

theorem Handling.opens (h : Handling p evs r s') (hphase : s'.phase = .connected) :
    ∀ e ∈ evs, e.Asks (Question.Opens p.settings.ns) := by
  cases h with
  | unconnected hlearns hinit => cases hinit.symm.trans hphase
  | undeployed hlearns hdeploying _ =>
    refine List.forall_mem_append.mpr ⟨fun e he => (hlearns e he).mono fun _ => .inl, ?_⟩
    exact fun e he => (asks_deploy _ _ _ hdeploying e he).mono fun _ => .inr
  | kept _ _ _ hdeployed _ =>
    rw [hphase] at hdeployed
    cases hdeployed
  | removed _ _ _ _ _ hends =>
    rcases hends with ⟨hindexed, -⟩ | ⟨hdone, -⟩
    · cases hindexed.symm.trans hphase
    · cases hdone.symm.trans hphase

theorem Handling.learns (h : Handling p evs r s') (hphase : s'.phase = .init) :
    ∀ e ∈ evs, e.Asks Question.Learns := by
  cases h with
  | unconnected hlearns _ => exact hlearns
  | undeployed _ _ hconnected => cases hconnected.symm.trans hphase
  | kept _ _ _ hdeployed _ =>
    rw [hphase] at hdeployed
    cases hdeployed
  | removed _ _ _ _ _ hends =>
    rcases hends with ⟨hindexed, -⟩ | ⟨hdone, -⟩
    · cases hindexed.symm.trans hphase
    · cases hdone.symm.trans hphase

end

/-- **The phase tells the truth**: in which phase a start ends tells exactly how far it came. -/
theorem start_tells_phase (p : Plan τ) (hp : p.team.Usual) (w : World τ σ) (now : τ) (world : σ)
    (session : Option Session) (sink : Option Sink) :
    let run := w.trace now world (p.start.perform (.fresh session sink))
    TellsPhase p w now world (.fresh session sink) run.2 run.1.1 run.1.2 := by
  intro run
  have hleaves : p.start.Leaves (.fresh session sink) run.2 run.1.1 run.1.2 :=
    w.trace_leaves now world _
  have hhandles := start_handles hp hleaves
  have hhalts : Halts w { now, state := world } (.fresh session sink) p run.1.2.phase :=
    start_halts p w { now, state := world } session sink
  have hended := endsRun_start hp _ _ _ _ (show Phase.init ≠ .done by decide) hleaves
  refine ⟨?_, hhalts.init_iff, hhandles.learns, hhandles.connected_iff, fun hphase => ⟨?_,
    hhandles.opens hphase⟩, hhalts.running_iff, (start_course hleaves).interrupted rfl,
    hhalts.indexed_iff, hended.done_iff, fun _ _ _ => withBalancer_leaves, fails_connect_iff⟩
  · have hshadows : p.startNoted.Shadows p.start := startWith_shadows phase? p
    have hsame := hshadows.trace_eq w now world (.fresh session sink) []
    have hnotes := w.trace_leaves now world (p.startNoted.perform (.fresh session sink, []))
    rcases hnoted : w.trace now world (p.startNoted.perform (.fresh session sink, [])) with
      ⟨⟨outcome, final, reached⟩, trace⟩
    rw [hnoted] at hsame hnotes
    obtain ⟨_, rfl, hfirst, -, hlast⟩ := startNoted_notes p _ _ _ _ _ _ hnotes
    have hrun : run = ((outcome, final), trace) := hsame
    rw [hrun]
    exact ⟨_, rfl, hfirst, hlast⟩
  · rw [hphase] at hhalts
    cases hhalts with
    | undeployed _ hopening =>
      rcases run_cases w { now, state := world } (.fresh session sink) p.opening with
        ⟨x, s', h', hopens⟩ | ⟨_, s', h', hopens⟩
      · have hstarts := start_of_opening hopens
        simp only [run, World.trace, hopens, hstarts]
      · exact absurd hopening (not_fails_of_run hopens)

/-- Where everything succeeds a start comes to the end of its timeline. -/
theorem start_tells_phase_ideal :
    let p := Sample.plan [{ serverReplicas := 2 }]
    let run := Sample.ideal.trace 0 {} (p.start.perform (.fresh none none))
    p.team.Usual ∧ TellsPhase p Sample.ideal 0 {} (.fresh none none) run.2 run.1.1 run.1.2 ∧
      run.1.2.phase = .done ∧ run.1.1 = .ok () :=
  have htells := start_tells_phase _ Sample.team_usual Sample.ideal 0 {} none none
  ⟨Sample.team_usual, htells, by decide +kernel, by decide +kernel⟩

/-- **A helper can end the run with the verdict of a failed comparison**; then the run is not done. -/
theorem verdict_of_driver_runs :
    let p := Sample.plan [{ serverReplicas := 2 }]
    let run := Sample.condemning.trace 0 {} (p.start.perform (.fresh none none))
    run.1.1 = .error .comparison ∧ run.1.2.phase = .running ∧
      ¬ (run.1.2.phase = .done ↔ run.1.1 = .ok () ∨ run.1.1 = .error .comparison) := by
  decide +kernel

end IngressBench.Plan
