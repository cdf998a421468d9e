import IngressBench.Proofs.Run.Register
import IngressBench.Proofs.Run.Twins

/-!
Verdicts have no influence on a run before its last step. In two worlds that differ in what
comparisons find (`verdicts`) a run does the same, and is in the same state but for its verdict; it
fails in both of them for the same reason, or is done in both, and then each run tells its own
verdict, behind the closing of its sink and the removal of its objects (`start_ignores_verdicts`).
Every test case that is completed and no warm-up is compared once.

A helper that raises the failure of a comparison itself ends the run before it is done
(`verdict_of_driver_breaks`).
-/
namespace IngressBench

variable {τ : Type}

/-- Worlds that differ in what comparisons find. -/
def verdicts : Variation where
  concerns
    | .compare .. => True
    | _ => False
  allows
    | .compare .., r₁, r₂ => r₁ = r₂ ∨ (∃ found, r₁ = .ok found) ∧ ∃ found, r₂ = .ok found
    | _, _, _ => False
  tells
    | .compare c _, .ok false =>
      [(.error, s!"Benchmark comparison failed for test case with uuid {c.uuid}")]
    | _, _ => []

theorem verdicts_common (q : Question) (h : q.Common ∨ q.Stores) : ¬ verdicts.concerns q := by
  cases q <;> first | exact id | exact (h.elim id id).elim

/-- What is compared. -/
def Event.comparison? : Event τ → Option (TestCase × List Result)
  | .asked (.compare c results) _ _ => some (c, results)
  | _ => none

/-- A comparison that finds results worse than before. -/
def Event.rejects : Event τ → Bool
  | .asked (.compare ..) (.ok false) _ => true
  | _ => false

namespace HelperCall

/-- What is compared. -/
def compared? : HelperCall → Option (TestCase × List Result)
  | compared c results _ => some (c, results)
  | _ => none

/-- A test case that is completed and no warm-up, with its results. -/
def completed? : HelperCall → Option (TestCase × List Result)
  | measured c (.ok results) => if c.warmup then none else some (c, results)
  | _ => none

end HelperCall

/-! ### Events without comparisons -/

section
variable {evs : List (Event τ)} (h : ∀ e ∈ evs, e.Asks fun q => ¬ verdicts.concerns q)
include h

theorem comparisons_of_asks : evs.filterMap Event.comparison? = [] := by
  refine List.filterMap_eq_nil_iff.mpr fun e he => ?_
  have hasks := h e he
  cases e with
  | asked q reply time => cases q <;> first | rfl | exact absurd trivial hasks
  | _ => rfl

theorem rejects_of_asks : evs.any Event.rejects = false := by
  refine List.any_eq_false.mpr fun e he => ?_
  have hasks := h e he
  cases e with
  | asked q reply time =>
    cases q <;> first | exact Bool.false_ne_true | exact absurd trivial hasks
  | _ => exact Bool.false_ne_true

end

namespace Plan

variable [TimeScale τ] {p : Plan τ}

section
variable (hp : p.team.Usual)
include hp

/-- Neither the tuner nor the driver of a usual team compares anything. -/
theorem tune_unjudged (profile : String) :
    (p.team.tune profile).Asks fun q => ¬ verdicts.concerns q :=
  hp.asks_tune (fun q h => verdicts_common q (.inl (common_of_applies q h))) (fun _ => id) profile

theorem drive_unjudged (c : TestCase) (metadata : ClusterMetadata) (server : Option MetricsServer)
    (podMetrics : Bool) :
    (p.team.drive c metadata server podMetrics).Asks fun q => ¬ verdicts.concerns q :=
  hp.asks_drive (fun q h => verdicts_common q (.inl (common_of_gauges q h))) (fun _ _ _ => id)
    c metadata server podMetrics

/-! ### Twins -/

/-- **A verdict of any kind lets the run go on**; it changes the state in one place. -/
theorem twins_compare (c : TestCase) (results : List Result) :
    Keeping.Twins verdicts (Apart fun _ _ => True) Eq (p.compare c results)
      (p.compare c results) := by
  rintro s₁ _ ⟨passed, rfl, -⟩
  rcases hp.compare with hnone | hsome
  · unfold compare
    rw [hnone]
    exact .done ⟨rfl, passed, rfl, trivial⟩
  · have hcompare : ∀ s : RunState, (p.compare c results).perform s =
        .call (.ask (.compare c results)) fun r => .telling (verdicts.tells (.compare c results) r)
          (.done (r.map fun _ => (),
            if r.toOption = some false then { s with passed := false } else s)) := fun s => by
      unfold compare
      rw [hsome]
      refine congrArg (Program.call _) (funext fun r => ?_)
      rcases r with x | _ | _ <;> rfl
    rw [hcompare, hcompare]
    refine .told trivial fun r₁ r₂ h => .done ?_
    rcases h with rfl | ⟨⟨found₁, rfl⟩, found₂, rfl⟩
    · rcases r₁ with x | _ | _
      · exact ⟨rfl, passed, rfl, trivial⟩
      · exact ⟨rfl, false, rfl, trivial⟩
      · exact ⟨rfl, passed, rfl, trivial⟩
    · refine ⟨rfl, ?_⟩
      cases found₁ <;> cases found₂ <;> exact ⟨_, rfl, trivial⟩

/-- Up to its verdict a run is its own twin, whatever is found. -/
theorem twins_removing_verdicts :
    Keeping.Twins verdicts (Apart fun _ _ => True) Eq p.removing p.removing :=
  twins_removing (fun q h => verdicts_common q (.inl h)) (tune_unjudged hp) (drive_unjudged hp)
    (twins_compare hp)
    (fun _ => Keeping.twins_self ((Sink.asks_accept _).mono fun q h => verdicts_common q (.inr h)))
    ((Team.asks_connection hp.connect).mono fun q h =>
      verdicts_common q (.inl (common_of_learns q h)))
    (Keeping.twins_self (Sink.asks_close.mono fun q h => verdicts_common q (.inr h)))

end

/-- How two runs that differ in what comparisons find are alike. -/
structure IgnoresVerdicts (run₁ run₂ : (Except Failure Unit × RunState) × List (Event τ)) : Prop where
  /-- The runs ask the same questions at the same times, and let the same time pass. -/
  acts : run₁.2.filterMap Event.act? = run₂.2.filterMap Event.act?
  /-- Their events differ in the replies to comparisons, and in the line behind a rejection. -/
  rows : Varies verdicts run₁.2 run₂.2
  /-- Their last states differ in the verdict. -/
  states : Apart (fun _ _ => True) run₁.1.2 run₂.1.2
  /-- They end with the same failure before they are done, or both of them are done. -/
  outcomes : (∃ x, run₁.1.1 = .error x ∧ run₂.1.1 = .error x) ∧ run₁.1.2.phase ≠ .done ∨
    run₁.1.1 = run₁.1.2.verdict ∧ run₂.1.1 = run₂.1.2.verdict ∧ run₁.1.2.phase = .done ∧
      run₂.1.2.phase = .done

/-- A start that comes beyond its removal is done, and the others are not. -/
theorem start_removing {σ : Type} (p : Plan τ) (w : World τ σ) (h : History τ σ)
    (session : Option Session) (sink : Option Sink) :
    (∃ x s' h', w.run (p.removing.perform (.fresh session sink)) h = ((.error x, s'), h') ∧
        w.run (p.start.perform (.fresh session sink)) h = ((.error x, s'), h') ∧
        s'.phase ≠ .done) ∨
      ∃ s' h', w.run (p.removing.perform (.fresh session sink)) h = ((.ok (), s'), h') ∧
        w.run (p.start.perform (.fresh session sink)) h =
          ((s'.verdict, { s' with phase := .done }), h') := by
  have hhalts := start_halts p w h session sink
  rw [start_eq] at hhalts ⊢
  rcases run_cases w h (.fresh session sink) p.removing with
    ⟨x, s', h', hremoving⟩ | ⟨_, s', h', hremoving⟩
  · rw [World.run_perform_error hremoving] at hhalts ⊢
    refine .inl ⟨x, s', h', hremoving, rfl, fun hdone => ?_⟩
    rw [show s'.phase = .done from hdone] at hhalts
    cases hhalts with
    | complete hnone => exact hnone (fails_of_run hremoving)
  · rw [World.run_perform_ok hremoving, run_ending]
    exact .inr ⟨s', h', hremoving, rfl⟩

/-- **Verdicts have no influence on a run before its last step.** -/
theorem ignoresVerdicts {σ₁ σ₂ : Type} (hp : p.team.Usual) {R : σ₁ → σ₂ → Prop}
    {w₁ : World τ σ₁} {w₂ : World τ σ₂} (hw : World.Alike verdicts R w₁ w₂) (now : τ)
    {world₁ : σ₁} {world₂ : σ₂} (hworld : R world₁ world₂) (session : Option Session)
    (sink : Option Sink) :
    IgnoresVerdicts (w₁.trace now world₁ (p.start.perform (.fresh session sink)))
      (w₂.trace now world₂ (p.start.perform (.fresh session sink))) := by
  obtain ⟨⟨hagree, hstates⟩, htwin⟩ :=
    (twins_removing_verdicts hp (.fresh session sink) _ ⟨_, rfl, trivial⟩).run hw
      (.begin now hworld)
  unfold World.trace
  rcases start_removing p w₁ { now, state := world₁ } session sink with
      ⟨x₁, s₁, h₁, hremoved₁, hstart₁, hphase⟩ | ⟨s₁, h₁, hremoved₁, hstart₁⟩ <;>
    rcases start_removing p w₂ { now, state := world₂ } session sink with
      ⟨x₂, s₂, h₂, hremoved₂, hstart₂, -⟩ | ⟨s₂, h₂, hremoved₂, hstart₂⟩ <;>
    rw [hremoved₁, hremoved₂] at hagree hstates htwin <;>
    rw [hstart₁, hstart₂]
  · obtain rfl : x₁ = x₂ := hagree
    exact ⟨htwin.events.acts_eq, htwin.events, hstates, .inl ⟨⟨x₁, rfl, rfl⟩, hphase⟩⟩
  · exact hagree.elim
  · exact hagree.elim
  · obtain ⟨passed, rfl, -⟩ := hstates
    exact ⟨htwin.events.acts_eq, htwin.events, ⟨passed, rfl, trivial⟩, .inr ⟨rfl, rfl, rfl, rfl⟩⟩

/-! ### One run -/

open HelperCall

omit [TimeScale τ] in
/-- Where there is a comparator every completed test case that is no warm-up is compared. -/
theorem CaseCalls.compared (hsome : p.team.compare.isSome = true) {c : TestCase}
    {applied applied' : String} {calls : List HelperCall} {r : Except Failure Unit}
    (h : CaseCalls p c applied calls r applied') :
    calls.filterMap compared? = calls.filterMap completed? := by
  have htuned : ∀ {tuning : List HelperCall} {r : Except Failure Unit} {applied' : String},
      TuneCalls c applied tuning r applied' →
        tuning.filterMap compared? = [] ∧ tuning.filterMap completed? = [] := fun h => by
    cases h <;> exact ⟨rfl, rfl⟩
  cases h with
  | unscaled => rfl
  | untuned htuning =>
    obtain ⟨hcompared, hcompleted⟩ := htuned htuning
    rw [hcompared, hcompleted]
  | unmeasured htuning =>
    obtain ⟨hcompared, hcompleted⟩ := htuned htuning
    simp only [List.filterMap_append, hcompared, hcompleted]
    rfl
  | warm htuning hwarm =>
    obtain ⟨hcompared, hcompleted⟩ := htuned htuning
    simp [hcompared, hcompleted, compared?, completed?, hwarm]
  | judged htuning hwarm hjudging _ =>
    obtain ⟨hcompared, hcompleted⟩ := htuned htuning
    cases hjudging with
    | unjudged hnone =>
      rw [hnone] at hsome
      cases hsome
    | judged _ =>
      simp [hcompared, hcompleted, compared?, completed?, hwarm, List.filterMap_cons]
    | failed _ =>
      simp [hcompared, hcompleted, compared?, completed?, hwarm, List.filterMap_cons]

omit [TimeScale τ] in
theorem CasesCalls.compared (hsome : p.team.compare.isSome = true) {cases : List TestCase}
    {applied applied' : String} {calls : List HelperCall} {r : Except Failure Unit}
    (h : CasesCalls p cases applied calls r applied') :
    calls.filterMap compared? = calls.filterMap completed? := by
  induction h with
  | none => rfl
  | more first _ ih => rw [List.filterMap_append, List.filterMap_append, first.compared hsome, ih]
  | broken first => exact first.compared hsome

section
variable (hp : p.team.Usual)
include hp

/-- The comparisons of the register are those of the events. -/
theorem startEntered_compared :
    Enters (fun _ evs new _ => evs.filterMap Event.comparison? = new.filterMap compared?)
      p.startEntered := by
  refine startEntered_tells (fun e he => ?_)
    ((Team.asks_connection hp.connect).mono common_of_learns) (fun profile evs r h => ?_)
    (fun c metadata server podMetrics evs r h => ?_) fun comparator hsome c results evs r h => ?_
  · have hnone : [e].filterMap Event.comparison? = [] :=
      comparisons_of_asks (List.forall_mem_singleton.mpr (he.mono verdicts_common))
    cases hread : e.comparison? with
    | none => rfl
    | some row =>
      rw [List.filterMap_cons_some hread] at hnone
      cases hnone
  · exact comparisons_of_asks (tune_unjudged hp profile _ _ h)
  · exact comparisons_of_asks (drive_unjudged hp c metadata server podMetrics _ _ h)
  · rcases hp.compare with hnone | houtside
    · cases hnone.symm.trans hsome
    · cases houtside.symm.trans hsome
      obtain ⟨time, rfl⟩ := Outside.compare_leaves h
      rfl

/-- The verdict of a run is good until a comparison rejects its results. -/
theorem startEntered_passed :
    Enters (fun s evs _ s' => s'.passed = (s.passed && !evs.any Event.rejects)) p.startEntered := by
  refine startEntered_enters ⟨fun s => by simp, fun h h' => ?_⟩ (fun s evs s' hasks hpassed => ?_)
    ((Team.asks_connection hp.connect).mono common_of_learns) (fun s profile evs r h => ?_)
    (fun s c metadata server podMetrics evs r h => ?_) fun c results s calls evs r s' calls' h => ?_
  · rw [h', h, List.any_append, Bool.not_or, Bool.and_assoc]
  · rw [hpassed, rejects_of_asks fun e he => (hasks e he).mono verdicts_common]
    simp
  · rw [rejects_of_asks (tune_unjudged hp profile _ _ h)]
    simp
  · rw [rejects_of_asks (drive_unjudged hp c metadata server podMetrics _ _ h)]
    simp
  unfold compareWith at h
  rcases hp.compare with hnone | hsome
  · rw [hnone] at h
    obtain ⟨rfl, -, hs⟩ := Keeping.leaves_pure.mp h
    cases hs
    exact ⟨[], (List.append_nil _).symm, by simp⟩
  · rw [hsome] at h
    rcases leaves_calling_bind h with ⟨x, hx, -, rfl, rfl⟩ | ⟨found, _, _, hfound, h₁, rfl⟩
    · obtain ⟨time, rfl⟩ := Outside.compare_leaves hx
      exact ⟨_, rfl, by simp [Event.rejects]⟩
    obtain ⟨time, rfl⟩ := Outside.compare_leaves hfound
    cases found with
    | true =>
      obtain ⟨rfl, -, hs⟩ := Keeping.leaves_pure.mp h₁
      cases hs
      exact ⟨_, rfl, by simp [Event.rejects]⟩
    | false =>
      obtain ⟨_, h₂, rfl⟩ := Keeping.leaves_beside_log_bind.mp h₁
      obtain ⟨hset, rfl⟩ := Keeping.leaves_beside.mp h₂
      obtain ⟨rfl, -, rfl⟩ := Keeping.leaves_modify.mp hset
      exact ⟨_, rfl, by simp [Event.rejects]⟩

end

/-! ### The end of a run -/

omit [TimeScale τ] in
/-- Taking results refills the sink of a run. -/
theorem refills_accept {s s' : RunState} {evs : List (Event τ)} {r : Except Failure Unit}
    {results : List (Option Result)} (h : (withSink (Sink.accept results)).Leaves s evs r s') :
    s'.sink.map Sink.emptied = s.sink.map Sink.emptied := by
  rcases withSink_leaves h with ⟨-, -, -, rfl⟩ | ⟨sink, sink', hsink, haccept, rfl⟩
  · rfl
  · rw [hsink]
    exact congrArg some (Sink.keeps_accept _ _ _ _ _ haccept)

theorem Attempt.refills {metadata : ClusterMetadata} {metrics : MetricsServer} {c : TestCase}
    {s s' : RunState} {evs : List (Event τ)} {r : Except Failure Unit}
    (h : Attempt p metadata metrics c s evs r s') :
    s'.sink.map Sink.emptied = s.sink.map Sink.emptied := by
  cases h with
  | unscaled _ => rfl
  | untuned _ htuning => rw [(keeps_tune c _ _ _ _ htuning).sink_eq]
  | unmeasured hprelude _ => rw [hprelude.near.sink_eq]
  | warm hprelude _ _ => rw [hprelude.near.sink_eq]
  | uncompared hprelude _ _ hjudging =>
    rw [(hprelude.near.trans (keeps_compare c _ _ _ _ _ hjudging)).sink_eq]
  | handed hprelude _ _ hjudging hstoring =>
    rw [refills_accept hstoring, (hprelude.near.trans (keeps_compare c _ _ _ _ _ hjudging)).sink_eq]

/-- Test cases change the documents of a sink only. -/
theorem Rounds.refills {metadata : ClusterMetadata} {metrics : MetricsServer}
    {done : List TestCase} {s s' : RunState} {evs : List (Event τ)}
    (h : Rounds p metadata metrics done s evs s') :
    s'.sink.map Sink.emptied = s.sink.map Sink.emptied := by
  induction h with
  | none => rfl
  | more first _ ih => exact ih.trans first.refills

omit [TimeScale τ] in
/-- A sink that is closed keeps no documents. -/
theorem close_empties {s s' : RunState} {evs : List (Event τ)} {r : Except Failure Unit}
    (h : (withSink Sink.close).Leaves s evs r s') : s'.sink = s.sink.map Sink.emptied := by
  rcases withSink_leaves h with ⟨hnone, -, -, rfl⟩ | ⟨sink, sink', hsink, hclose, rfl⟩
  · rw [hnone]
    rfl
  · rw [hsink]
    exact congrArg some (Sink.close_leaves hclose)

/-- The end of a run with the given sink. -/
structure Concluded (p : Plan τ) (sink : Option Sink) (evs : List (Event τ)) (final : RunState) :
    Prop where
  /-- The sink keeps no documents. -/
  empty : final.sink = sink.map Sink.emptied
  /-- The objects have been removed if that was asked for. -/
  torndown : final.torndown = p.cleanup
  /-- The last events are those of closing the sink, whatever it kept then, and behind them those of
  removing the objects; both end well. -/
  row : ∃ before storing removing s s', evs = before ++ (storing ++ removing) ∧
    s.sink.map Sink.emptied = sink.map Sink.emptied ∧
    (withSink Sink.close).Leaves s storing (.ok ()) s' ∧
    if p.cleanup then (removeAssets p.limits.pace p.limits.cleanup final.existed
      p.settings.ns).Leaves removing (.ok ()) else removing = []

/-- A start that is done has measured its test cases, and wraps up from there. -/
theorem wrapUp_of_done {session : Option Session} {sink : Option Sink} {evs : List (Event τ)}
    {r : Except Failure Unit} {s' : RunState} (h : p.start.Leaves (.fresh session sink) evs r s')
    (hdone : s'.phase = .done) :
    ∃ before closing s, evs = before ++ closing ∧ p.wrapUp.Leaves s closing r s' ∧
      s.phase = .running ∧ s.torndown = false ∧ s.session.isSome = true ∧
      s.sink.map Sink.emptied = sink.map Sink.emptied := by
  cases start_course h with
  | unconnected hconnecting =>
    obtain ⟨_, -, ⟨-, rfl⟩ | ⟨⟨_, hv⟩, -⟩⟩ := connect_leaves hconnecting
    · cases hdone
    · cases hv
  | undeployed hconnecting hdeploying =>
    obtain ⟨_, hr, -, rfl⟩ | ⟨_, hr, -⟩ := deployAssets_leaves hdeploying
    · obtain ⟨_, -, ⟨⟨_, hv⟩, -⟩ | ⟨-, -, rfl⟩⟩ := connect_leaves hconnecting
      · cases hv
      · cases hdone
    · cases hr
  | broken hconnecting hdeploying hcases hfinished hbroken =>
    cases (hfinished.along.trans hbroken.along).phase_eq.symm.trans hdone
  | @closed connecting deploying finished closing _ _ _ _ _ _ _ hconnecting hdeploying hfinished
      hclosing =>
    obtain ⟨_, -, ⟨⟨_, hv⟩, -⟩ | ⟨-, hsession, rfl⟩⟩ := connect_leaves hconnecting
    · cases hv
    obtain ⟨_, hr, -⟩ | ⟨_, -, -, rfl⟩ := deployAssets_leaves hdeploying
    · cases hr
    obtain ⟨_, _, _, rfl⟩ := hfinished.along
    refine ⟨connecting ++ deploying ++ finished, closing, _, ?_, hclosing, rfl, rfl, hsession,
      hfinished.refills⟩
    simp only [List.append_assoc]

/-- **A start that is done has closed its sink and removed its objects.** -/
theorem concluded_of_done {session : Option Session} {sink : Option Sink} {evs : List (Event τ)}
    {r : Except Failure Unit} {s' : RunState} (h : p.start.Leaves (.fresh session sink) evs r s')
    (hdone : s'.phase = .done) : Concluded p sink evs s' := by
  obtain ⟨before, closing, s, rfl, hclosing, hphase, htorn, hsession, hkept⟩ :=
    wrapUp_of_done h hdone
  cases wrapUp_leaves hclosing with
  | unstored hstoring =>
    cases hphase.symm.trans ((keeps_withSink _ _ _ _ _ hstoring).phase_eq.symm.trans hdone)
  | kept hkeep hstoring =>
    obtain ⟨_, _, _, rfl⟩ := keeps_withSink _ _ _ _ _ hstoring
    refine ⟨(close_empties hstoring).trans hkept, htorn.trans hkeep.symm, before, closing, [], s, _,
      by rw [List.append_nil], hkept, hstoring, ?_⟩
    rw [hkeep]
    rfl
  | unremoved _ _ hremoving =>
    rw [(teardown_leaves hremoving).1] at hdone
    cases hdone
  | @removed storing removing _ s₁ _ hclean hstoring hremoving =>
    obtain ⟨_, _, _, rfl⟩ := keeps_withSink _ _ _ _ _ hstoring
    have hremoved := teardown_removes hremoving htorn hsession
    obtain ⟨rfl, -⟩ := teardown_leaves hremoving
    refine ⟨(close_empties hstoring).trans hkept, hclean.symm, before, storing, removing, s, _, rfl,
      hkept, hstoring, ?_⟩
    rw [if_pos hclean]
    exact hremoved

/-- What a run does with the results that it compares: its calls of helpers, its events, what it ends
with and its last state. -/
structure Judged (p : Plan τ) (sink : Option Sink) (calls : List HelperCall)
    (trace : List (Event τ)) (outcome : Except Failure Unit) (final : RunState) : Prop where
  /-- Every test case that is completed and no warm-up is compared once, in order. -/
  once : trace.filterMap Event.comparison? = calls.filterMap completed?
  /-- A run that is done has closed its sink and removed its objects; it fails exactly when a
  comparison rejected its results. -/
  done : final.phase = .done → Concluded p sink trace final ∧
    outcome = if trace.any Event.rejects then .error .comparison else .ok ()
  /-- A run that is not done fails, with the failure of a comparison only if a helper raised it. -/
  failed : final.phase ≠ .done → ∃ x, outcome = .error x ∧
    (x = .comparison → ∃ e ∈ trace, e.Raises .comparison)

theorem judged_of_leaves (hp : p.team.Usual) (hsome : p.team.compare.isSome = true)
    {session : Option Session} {sink : Option Sink} {evs : List (Event τ)}
    {r : Except Failure Unit} {s' : RunState} {calls : List HelperCall}
    (h : p.startEntered.Leaves (.fresh session sink, []) evs r (s', calls)) :
    Judged p sink calls evs r s' := by
  have hstart := (startWith_shadows call? p).leaves h
  have hended := endsRun_start hp _ _ _ _ (show Phase.init ≠ .done by decide) hstart
  refine ⟨?_, fun hdone => ⟨concluded_of_done hstart hdone, ?_⟩, fun hphase => ?_⟩
  · obtain ⟨new, rfl, hread⟩ := startEntered_compared hp _ _ _ _ _ _ h
    rw [hread]
    cases startEntered_leaves rfl h with
    | unopened _ _ => rfl
    | broken hcases _ => exact hcases.compared hsome
    | closed hcases => exact hcases.compared hsome
  · obtain ⟨new, rfl, hpassed⟩ := startEntered_passed hp _ _ _ _ _ _ h
    cases hended with
    | failed x hr hphase hheeded => exact absurd hdone hphase
    | finished hr hphase hheeded =>
      rw [hr, RunState.verdict, hpassed]
      cases evs.any Event.rejects <;> rfl
  · cases hended with
    | failed x hr _ hheeded =>
      refine ⟨x, hr, fun hx => ?_⟩
      rcases hheeded.caused x hr (by rw [hx]; rfl) with hraised | ⟨hcancelled, -⟩
      · rwa [hx] at hraised
      · rw [hx] at hcancelled
        cases hcancelled
    | finished _ hdone _ => exact absurd hdone hphase

/-- **Verdicts have no influence on what a run does.** Two starts of one plan, in worlds that are
alike but for what comparisons find, do the same, and end alike but for their verdicts (see
`IgnoresVerdicts`). Each of them compares the results of what it has completed, and tells its verdict
when it is done (see `Judged`); what it has completed is in its register. -/
theorem start_ignores_verdicts {σ₁ σ₂ : Type} (p : Plan τ) (hp : p.team.Usual)
    (hsome : p.team.compare.isSome = true) (R : σ₁ → σ₂ → Prop) (w₁ : World τ σ₁)
    (w₂ : World τ σ₂) (hw : World.Alike verdicts R w₁ w₂) (now : τ) (world₁ : σ₁) (world₂ : σ₂)
    (hworld : R world₁ world₂) (session : Option Session) (sink : Option Sink) :
    let run₁ := w₁.trace now world₁ (p.start.perform (.fresh session sink))
    let run₂ := w₂.trace now world₂ (p.start.perform (.fresh session sink))
    let entered₁ := w₁.trace now world₁ (p.startEntered.perform (.fresh session sink, []))
    let entered₂ := w₂.trace now world₂ (p.startEntered.perform (.fresh session sink, []))
    IgnoresVerdicts run₁ run₂ ∧
      (run₁ = ((entered₁.1.1, entered₁.1.2.1), entered₁.2) ∧
        Judged p sink entered₁.1.2.2 run₁.2 run₁.1.1 run₁.1.2) ∧
      (run₂ = ((entered₂.1.1, entered₂.1.2.1), entered₂.2) ∧
        Judged p sink entered₂.1.2.2 run₂.2 run₂.1.1 run₂.1.2) := by
  have hjudged : ∀ {σ : Type} (w : World τ σ) (world : σ),
      let run := w.trace now world (p.start.perform (.fresh session sink))
      let entered := w.trace now world (p.startEntered.perform (.fresh session sink, []))
      run = ((entered.1.1, entered.1.2.1), entered.2) ∧
        Judged p sink entered.1.2.2 run.2 run.1.1 run.1.2 := by
    intro σ w world run entered
    have hrun : run = ((entered.1.1, entered.1.2.1), entered.2) :=
      (startWith_shadows call? p).trace_eq w now world _ []
    refine ⟨hrun, ?_⟩
    rw [hrun]
    exact judged_of_leaves hp hsome (w.trace_leaves now world _)
  exact ⟨ignoresVerdicts hp hw now hworld session sink, hjudged w₁ world₁, hjudged w₂ world₂⟩

/-- An ideal cluster, and a comparator that rejects all results. -/
def rejecting : World Nat Ideal where
  answer q s := match q with
    | .compare .. => (.ok false, 1, s)
    | q => Sample.ideal.answer q s

/-- Worlds with one ideal cluster, of which one rejects all results. -/
theorem rejecting_alike : World.Alike verdicts Eq Sample.ideal rejecting where
  stopAt := rfl
  notice := rfl
  same q s _ hs hq := by
    subst hs
    cases q <;> first | rfl | exact absurd trivial hq
  allowed q s _ hs hq := by
    subst hs
    cases q with
    | compare c results => exact .inr ⟨⟨_, rfl⟩, _, rfl⟩
    | _ => exact hq.elim
  cost q s _ hs := by
    subst hs
    cases q <;> rfl
  next q s _ hs := by
    subst hs
    cases q <;> rfl

/-- Two test cases and a warm-up, whose results are all accepted in one world and all rejected in the
other: both runs are done and have cleaned up, and only one of them fails. -/
theorem start_ignores_verdicts_rejected :
    let p := Sample.plan [{ uuid := "a" }, { warmup := true }, { uuid := "b" }]
    let run₁ := Sample.ideal.trace 0 {} (p.start.perform (.fresh none none))
    let run₂ := rejecting.trace 0 {} (p.start.perform (.fresh none none))
    p.team.Usual ∧ World.Alike verdicts Eq Sample.ideal rejecting ∧ IgnoresVerdicts run₁ run₂ ∧
      run₁.1.1 = .ok () ∧ run₂.1.1 = .error .comparison ∧ run₂.1.2.phase = .done ∧
      (run₂.2.filterMap Event.comparison?).length = 2 :=
  have hignores := start_ignores_verdicts _ Sample.team_usual rfl Eq Sample.ideal rejecting
    rejecting_alike 0 {} {} rfl none none
  ⟨Sample.team_usual, rejecting_alike, hignores.1, by decide +kernel, by decide +kernel,
    by decide +kernel, by decide +kernel⟩

/-- **A helper can end the run with the verdict of a failed comparison**: a run that has compared
nothing fails with it, and is not done. -/
theorem verdict_of_driver_breaks :
    let p := Sample.plan [{ serverReplicas := 2 }]
    let run := Sample.condemning.trace 0 {} (p.start.perform (.fresh none none))
    run.1.1 = .error .comparison ∧ run.2.filterMap Event.comparison? = [] ∧
      ¬ ((∃ x, x ≠ .comparison ∧ run.1.1 = .error x) ∨ run.1.2.phase = .done) := by
  intro p run
  have houtcome : run.1.1 = .error .comparison := by decide +kernel
  have hphase : run.1.2.phase = .running := by decide +kernel
  refine ⟨houtcome, by decide +kernel, ?_⟩
  rintro (⟨x, hx, hrun⟩ | hdone)
  · exact hx (Except.error.inj (hrun.symm.trans houtcome))
  · cases hphase.symm.trans hdone

end Plan
end IngressBench
