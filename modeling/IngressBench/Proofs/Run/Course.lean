import IngressBench.Proofs.Program.Leaves
import IngressBench.Run.Course

/-!
The course of a run, step by step. A start connects, deploys, attempts one test case after the
other, and closes (`start_course`); the test cases before the last one that it attempts are finished
(`runCases_leaves`). Whatever a start leaves is one of four rows: it fails to connect, it fails to
deploy, it fails in the middle of a test case, or it has finished all of them and closes.
-/
namespace IngressBench

/-- The state of a run that has not been started. -/
def RunState.fresh (session : Option Session) (sink : Option Sink) : RunState :=
  { session, sink }

/-- The phases in which the sink of a run is not closed yet. -/
def Phase.isOpen : Phase → Bool
  | .init | .connected | .deployed | .running => true
  | .indexed | .cleanedUp | .done => false

/-- The phases in which the objects of a run have been deployed. -/
def Phase.isDeployed : Phase → Bool
  | .init | .connected => false
  | .deployed | .running | .indexed | .cleanedUp | .done => true

namespace Plan

variable {τ : Type} [TimeScale τ]

/-! ### Steps around the sink -/

omit [TimeScale τ] in
/-- Without a sink a step of the sink does nothing. -/
theorem withSink_leaves {step : Keeping Sink τ Unit} {s s' : RunState} {evs : List (Event τ)}
    {r : Except Failure Unit} (h : (withSink step).Leaves s evs r s') :
    (s.sink = none ∧ evs = [] ∧ r = .ok () ∧ s' = s) ∨
      ∃ sink sink', s.sink = some sink ∧ step.Leaves sink evs r sink' ∧
        s' = { s with sink := some sink' } := by
  have h₁ := Keeping.leaves_ofProgram.mp h
  cases hsink : s.sink with
  | none =>
    rw [hsink] at h₁
    obtain ⟨rfl, h₂⟩ := h₁
    cases h₂
    exact .inl ⟨rfl, rfl, rfl, rfl⟩
  | some sink =>
    rw [hsink] at h₁
    obtain ⟨⟨outcome, sink'⟩, first, rest, hstep, ⟨rfl, h₂⟩, rfl⟩ := Program.leaves_bind.mp h₁
    cases h₂
    rw [List.append_nil]
    exact .inr ⟨sink, sink', rfl, hstep, rfl⟩

/-! ### One test case -/

/-- A test case is prepared: both deployments have been scaled, and its profile is applied. -/
inductive Prepared (p : Plan τ) (c : TestCase) (s : RunState) : List (Event τ) → RunState → Prop
  | mk {scaling tuning : List (Event τ)} {s' : RunState}
      (hscaling : (reconcile p.limits.pace p.limits.readiness p.settings.ns c.serverReplicas
        c.concurrency).Leaves scaling (.ok ()))
      (htuning : (p.tune c).Leaves s tuning (.ok ()) s') :
      Prepared p c s (scaling ++ tuning) s'

/-- A test case is attempted, and either finished or broken off by the first failure. -/
inductive Attempt (p : Plan τ) (metadata : ClusterMetadata) (metrics : MetricsServer) (c : TestCase)
    (s : RunState) : List (Event τ) → Except Failure Unit → RunState → Prop
  | unscaled {evs : List (Event τ)} {x : Failure}
      (hscaling : (reconcile p.limits.pace p.limits.readiness p.settings.ns c.serverReplicas
        c.concurrency).Leaves evs (.error x)) :
      Attempt p metadata metrics c s evs (.error x) s
  | untuned {scaling tuning : List (Event τ)} {x : Failure} {s' : RunState}
      (hscaling : (reconcile p.limits.pace p.limits.readiness p.settings.ns c.serverReplicas
        c.concurrency).Leaves scaling (.ok ()))
      (htuning : (p.tune c).Leaves s tuning (.error x) s') :
      Attempt p metadata metrics c s (scaling ++ tuning) (.error x) s'
  | unmeasured {prelude driving : List (Event τ)} {x : Failure} {s' : RunState}
      (hprelude : Prepared p c s prelude s')
      (hdriving : (p.team.drive c metadata (some metrics) p.settings.podMetrics).Leaves driving
        (.error x)) :
      Attempt p metadata metrics c s (prelude ++ driving) (.error x) s'
  | warm {prelude driving : List (Event τ)} {results : List Result} {text : String} {s' : RunState}
      (hprelude : Prepared p c s prelude s')
      (hdriving : (p.team.drive c metadata (some metrics) p.settings.podMetrics).Leaves driving
        (.ok results))
      (hwarm : c.warmup = true) :
      Attempt p metadata metrics c s (prelude ++ (driving ++ [.logged .info text])) (.ok ()) s'
  | uncompared {prelude driving judging : List (Event τ)} {results : List Result} {x : Failure}
      {s₁ s' : RunState}
      (hprelude : Prepared p c s prelude s₁)
      (hdriving : (p.team.drive c metadata (some metrics) p.settings.podMetrics).Leaves driving
        (.ok results))
      (hwarm : c.warmup = false)
      (hjudging : (p.compare c results).Leaves s₁ judging (.error x) s') :
      Attempt p metadata metrics c s (prelude ++ (driving ++ judging)) (.error x) s'
  | handed {prelude driving judging storing : List (Event τ)} {results : List Result}
      {r : Except Failure Unit} {s₁ s₂ s' : RunState}
      (hprelude : Prepared p c s prelude s₁)
      (hdriving : (p.team.drive c metadata (some metrics) p.settings.podMetrics).Leaves driving
        (.ok results))
      (hwarm : c.warmup = false)
      (hjudging : (p.compare c results).Leaves s₁ judging (.ok ()) s₂)
      (hstoring : (withSink (Sink.accept (results.map some))).Leaves s₂ storing r s') :
      Attempt p metadata metrics c s (prelude ++ (driving ++ (judging ++ storing))) r s'

variable {p : Plan τ} {metadata : ClusterMetadata} {metrics : MetricsServer}

theorem runCase_leaves {c : TestCase} {s s' : RunState} {evs : List (Event τ)}
    {r : Except Failure Unit} (h : (p.runCase metadata metrics c).Leaves s evs r s') :
    Attempt p metadata metrics c s evs r s' := by
  rcases Keeping.leaves_lift_bind.mp h with ⟨x, hx, rfl, rfl⟩ | ⟨_, scaling, _, hscaling, h₁, rfl⟩
  · exact .unscaled hx
  rcases Keeping.leaves_bind.mp h₁ with ⟨x, hx, rfl⟩ | ⟨_, s₁, tuning, _, htuning, h₂, rfl⟩
  · exact .untuned hscaling hx
  have hprelude := Prepared.mk hscaling htuning
  rw [← List.append_assoc]
  rcases Keeping.leaves_lift_bind.mp h₂ with ⟨x, hx, rfl, rfl⟩ |
    ⟨results, driving, _, hdriving, h₃, rfl⟩
  · exact .unmeasured hprelude hx
  cases hwarm : c.warmup with
  | true =>
    rw [hwarm, if_pos rfl] at h₃
    obtain ⟨hlog, rfl⟩ := Keeping.leaves_lift.mp h₃
    obtain ⟨rfl, rfl⟩ := Action.leaves_log.mp hlog
    exact .warm hprelude hdriving hwarm
  | false =>
    rw [hwarm, if_neg Bool.false_ne_true] at h₃
    rcases Keeping.leaves_bind.mp h₃ with ⟨x, hx, rfl⟩ |
      ⟨_, s₂, judging, storing, hjudging, h₄, rfl⟩
    · exact .uncompared hprelude hdriving hwarm hx
    · exact .handed hprelude hdriving hwarm hjudging h₄

/-! ### All test cases -/

/-- Test cases that were attempted one after the other and finished, each of them as a copy that
belongs to the run and behind two lines of the log. -/
inductive Rounds (p : Plan τ) (metadata : ClusterMetadata) (metrics : MetricsServer) :
    List TestCase → RunState → List (Event τ) → RunState → Prop
  | none {s : RunState} : Rounds p metadata metrics [] s [] s
  | more {c : TestCase} {rest : List TestCase} {s s₁ s' : RunState} {evs later : List (Event τ)}
      {heading line : String}
      (first : Attempt p metadata metrics (c.forRun p.run) s evs (.ok ()) s₁)
      (others : Rounds p metadata metrics rest s₁ later s') :
      Rounds p metadata metrics (c :: rest) s
        (.logged .info heading :: .logged .info line :: (evs ++ later)) s'

/-- **Test cases run in order until one of them fails**, or all are finished. -/
theorem runCases_leaves {number : Nat} {cases : List TestCase} {s s' : RunState}
    {evs : List (Event τ)} {r : Except Failure Unit}
    (h : (p.runCases metadata metrics number cases).Leaves s evs r s') :
    (Rounds p metadata metrics cases s evs s' ∧ r = .ok ()) ∨
      ∃ (done : List TestCase) (c : TestCase) (left : List TestCase)
          (finished broken : List (Event τ))
        (s₁ : RunState) (heading line : String) (x : Failure),
        cases = done ++ c :: left ∧ Rounds p metadata metrics done s finished s₁ ∧
        Attempt p metadata metrics (c.forRun p.run) s₁ broken (.error x) s' ∧ r = .error x ∧
        evs = finished ++ .logged .info heading :: .logged .info line :: broken := by
  induction cases generalizing number s evs with
  | nil =>
    obtain ⟨rfl, rfl, rfl⟩ := Keeping.leaves_pure.mp h
    exact .inl ⟨.none, rfl⟩
  | cons c rest ih =>
    obtain ⟨_, h₁, rfl⟩ := Keeping.leaves_log_bind.mp h
    obtain ⟨_, h₂, rfl⟩ := Keeping.leaves_log_bind.mp h₁
    rcases Keeping.leaves_bind.mp h₂ with ⟨x, hx, rfl⟩ | ⟨_, s₁, first, later, hfirst, h₃, rfl⟩
    · exact .inr ⟨[], c, rest, [], _, s, _, _, x, rfl, .none, runCase_leaves hx, rfl, rfl⟩
    · have hround := runCase_leaves hfirst
      rcases ih h₃ with ⟨hrest, rfl⟩ |
        ⟨done, c', left, finished, broken, s₂, heading, line, x, rfl, hdone, hbroken, rfl, rfl⟩
      · exact .inl ⟨.more hround hrest, rfl⟩
      · rw [← List.append_assoc first finished]
        exact .inr ⟨c :: done, c', left, _, broken, s₂, heading, line, x, rfl,
          .more hround hdone, hbroken, rfl, rfl⟩

/-! ### Closing -/

/-- What closing a run leaves: the sink is closed, and if that is asked for the objects are
removed. -/
inductive Closing (p : Plan τ) (s : RunState) :
    List (Event τ) → Except Failure Unit → RunState → Prop
  | unstored {storing : List (Event τ)} {x : Failure} {s' : RunState}
      (hstoring : (withSink Sink.close).Leaves s storing (.error x) s') :
      Closing p s storing (.error x) s'
  | kept {storing : List (Event τ)} {r : Except Failure Unit} {s₁ : RunState}
      (hkeep : p.cleanup = false)
      (hstoring : (withSink Sink.close).Leaves s storing (.ok ()) s₁) :
      Closing p s storing r { s₁ with phase := .done }
  | unremoved {storing removing : List (Event τ)} {x : Failure} {s₁ s' : RunState}
      (hclean : p.cleanup = true)
      (hstoring : (withSink Sink.close).Leaves s storing (.ok ()) s₁)
      (hremoving : p.teardown.Leaves { s₁ with phase := .indexed } removing (.error x) s') :
      Closing p s (storing ++ removing) (.error x) s'
  | removed {storing removing : List (Event τ)} {r : Except Failure Unit} {s₁ s₂ : RunState}
      (hclean : p.cleanup = true)
      (hstoring : (withSink Sink.close).Leaves s storing (.ok ()) s₁)
      (hremoving : p.teardown.Leaves { s₁ with phase := .indexed } removing (.ok ()) s₂) :
      Closing p s (storing ++ removing) r { s₂ with phase := .done }

theorem wrapUp_leaves {s s' : RunState} {evs : List (Event τ)} {r : Except Failure Unit}
    (h : p.wrapUp.Leaves s evs r s') : Closing p s evs r s' := by
  have hend : ∀ {s s' : RunState} {evs : List (Event τ)} {r : Except Failure Unit},
      Keeping.Leaves (do reach .done; if !(← get).passed then throw .comparison) s evs r s' →
        evs = [] ∧ s' = { s with phase := .done } := by
    intro s s' evs r h
    have h₁ := Keeping.leaves_get_bind.mp (Keeping.leaves_modify_bind.mp h)
    split at h₁
    · obtain ⟨hevs, -, hs⟩ := Keeping.leaves_throw.mp h₁
      exact ⟨hevs, hs⟩
    · obtain ⟨hevs, -, hs⟩ := Keeping.leaves_pure.mp h₁
      exact ⟨hevs, hs⟩
  rcases Keeping.leaves_bind.mp h with ⟨x, hx, rfl⟩ | ⟨_, s₁, storing, _, hstoring, h₁, rfl⟩
  · exact .unstored hx
  have h₂ := Keeping.leaves_modify_bind.mp h₁
  cases hclean : p.cleanup with
  | false =>
    rw [hclean, if_neg Bool.false_ne_true] at h₂
    obtain ⟨rfl, hs⟩ := hend h₂
    have hdone : s' = { s₁ with phase := .done } := hs
    rw [List.append_nil, hdone]
    exact .kept hclean hstoring
  | true =>
    rw [hclean, if_pos rfl] at h₂
    rcases Keeping.leaves_bind.mp h₂ with ⟨x, hx, rfl⟩ | ⟨_, s₂, removing, _, hremoving, h₃, rfl⟩
    · exact .unremoved hclean hstoring hx
    · obtain ⟨rfl, hs⟩ := hend (Keeping.leaves_modify_bind.mp h₃)
      have hdone : s' = { s₂ with phase := .done } := hs
      rw [List.append_nil, hdone]
      exact .removed hclean hstoring hremoving

/-! ### The whole course -/

/-- What a start leaves. -/
inductive Course (p : Plan τ) (s : RunState) :
    List (Event τ) → Except Failure Unit → RunState → Prop
  | unconnected {evs : List (Event τ)} {x : Failure} {s' : RunState}
      (hconnecting : p.connect.Leaves s evs (.error x) s') :
      Course p s evs (.error x) s'
  | undeployed {connecting deploying : List (Event τ)} {learnt : ClusterMetadata × MetricsServer}
      {x : Failure} {s₁ s' : RunState}
      (hconnecting : p.connect.Leaves s connecting (.ok learnt) s₁)
      (hdeploying : p.deployAssets.Leaves s₁ deploying (.error x) s') :
      Course p s (connecting ++ deploying) (.error x) s'
  | broken {connecting deploying finished broken : List (Event τ)} {metadata : ClusterMetadata}
      {metrics : MetricsServer} {done left : List TestCase} {c : TestCase} {heading line : String}
      {x : Failure} {s₁ s₂ s₃ s' : RunState}
      (hconnecting : p.connect.Leaves s connecting (.ok (metadata, metrics)) s₁)
      (hdeploying : p.deployAssets.Leaves s₁ deploying (.ok ()) s₂)
      (hcases : p.cases = done ++ c :: left)
      (hfinished : Rounds p metadata metrics done { s₂ with phase := .running } finished s₃)
      (hbroken : Attempt p metadata metrics (c.forRun p.run) s₃ broken (.error x) s') :
      Course p s (connecting ++ (deploying ++
        (finished ++ .logged .info heading :: .logged .info line :: broken))) (.error x) s'
  | closed {connecting deploying finished closing : List (Event τ)} {metadata : ClusterMetadata}
      {metrics : MetricsServer} {r : Except Failure Unit} {s₁ s₂ s₃ s' : RunState}
      (hconnecting : p.connect.Leaves s connecting (.ok (metadata, metrics)) s₁)
      (hdeploying : p.deployAssets.Leaves s₁ deploying (.ok ()) s₂)
      (hfinished : Rounds p metadata metrics p.cases { s₂ with phase := .running } finished s₃)
      (hclosing : p.wrapUp.Leaves s₃ closing r s') :
      Course p s (connecting ++ (deploying ++ (finished ++ closing))) r s'

/-- **Every start takes one of these courses.** -/
theorem start_course {s s' : RunState} {evs : List (Event τ)} {r : Except Failure Unit}
    (h : p.start.Leaves s evs r s') : Course p s evs r s' := by
  rcases Keeping.leaves_bind.mp h with
    ⟨x, hx, rfl⟩ | ⟨⟨metadata, metrics⟩, s₁, connecting, _, hconnecting, h₁, rfl⟩
  · exact .unconnected hx
  rcases Keeping.leaves_bind.mp h₁ with ⟨x, hx, rfl⟩ | ⟨_, s₂, deploying, _, hdeploying, h₂, rfl⟩
  · exact .undeployed hconnecting hx
  have h₃ := Keeping.leaves_modify_bind.mp h₂
  rcases Keeping.leaves_bind.mp h₃ with ⟨x, hx, rfl⟩ | ⟨_, s₃, finished, closing, hcases, h₄, rfl⟩
  · rcases runCases_leaves hx with ⟨-, hr⟩ |
      ⟨done, c, left, finished, broken, s₃, heading, line, x', hcases, hdone, hbroken, hr, rfl⟩
    · cases hr
    · cases hr
      exact .broken hconnecting hdeploying hcases hdone hbroken
  · rcases runCases_leaves hcases with ⟨hall, -⟩ | ⟨_, _, _, _, _, _, _, _, _, _, _, _, hr, _⟩
    · exact .closed hconnecting hdeploying hall h₄
    · cases hr

end Plan
end IngressBench
