import IngressBench.Proofs.Cluster.Objects
import IngressBench.Proofs.Run.Changes
import IngressBench.Proofs.Run.Recorded

/-!
What a start that ends well has done.

Of a run that keeps every measurement, every handing of results to its sink and the closing of the
sink in its register this can be told by the register: a start that ends well has measured each of its
test cases once and in order, as a copy under the name of the run, has handed over the results of all
but the warm-ups, and has closed the sink after that (`startActing_serves`). If it cleans up, its last
events are those of a removal in which every call succeeded (`start_tears_down`).
-/
namespace IngressBench

namespace Plan

/-- What a run does for its results, and what it ended with. -/
inductive Act where
  | measured (case : TestCase) (outcome : Except Failure (List Result))
  | handed (sink : Cadence) (results : List Result) (outcome : Except Failure Unit)
  | closed (sink : Cadence) (outcome : Except Failure Unit)

/-- What is done for a test case that is finished, by the sink of the run. -/
def actsOf (sink : Option Cadence) (c : TestCase) (results : List Result) : List Act :=
  .measured c (.ok results) ::
    if c.warmup then [] else sink.toList.map fun cadence => .handed cadence results (.ok ())

/-- What is done for test cases that are all finished: each is measured once and in order, as its
copy under the name of the run. -/
inductive Served (run : String) (sink : Option Cadence) : List TestCase → List Act → Prop
  | none : Served run sink [] []
  | more {c c' : TestCase} {rest : List TestCase} {later : List Act} (results : List Result)
      (copied : TestCase.CopyFor run c c') (others : Served run sink rest later) :
      Served run sink (c :: rest) (actsOf sink c' results ++ later)

/-- The acts that close a sink, if there is one. -/
def closingActs (sink : Option Cadence) : List Act :=
  sink.toList.map fun cadence => .closed cadence (.ok ())

variable {τ : Type} [TimeScale τ]

/-- The act that an entry tells, if it tells one. -/
def act? : Entry → Option Act
  | .measured c outcome => some (.measured c outcome)
  | .handed sink results outcome => some (.handed sink results outcome)
  | .closed sink outcome => some (.closed sink outcome)
  | _ => none

/-- A run that keeps what it does for its results. -/
def startActing (p : Plan τ) : Recorded Act τ Unit :=
  p.startWith act?

/-! ### What is entered -/

section
variable {p : Plan τ} {metadata : ClusterMetadata} {metrics : MetricsServer} {s s' : RunState}
  {acts acts' : List Act} {evs : List (Event τ)} {c : TestCase}

omit [TimeScale τ] in
/-- Taking results leaves it as it is when a sink stores them. -/
theorem accept_cadence {results : List (Option Result)} {r : Except Failure Unit}
    (h : (withSink (Sink.accept results)).Leaves s evs r s') : s'.cadence? = s.cadence? := by
  rcases withSink_leaves h with ⟨-, -, -, rfl⟩ | ⟨sink, sink', hsink, haccept, rfl⟩
  · rfl
  · have halike : sink'.emptied = sink.emptied := Sink.keeps_accept results _ _ _ _ haccept
    show some sink'.cadence = s.sink.map Sink.cadence
    rw [hsink]
    exact congrArg (fun alike => some alike.cadence) halike

/-- **A test case that is finished** has been measured, and its results have been handed over. -/
theorem runCaseActing_serves
    (h : (p.runCaseWith act? metadata metrics c).Leaves (s, acts) evs (.ok ()) (s', acts')) :
    ∃ results, acts' = acts ++ actsOf s.cadence? c results ∧ s'.cadence? = s.cadence? := by
  unfold runCaseWith at h
  rw [tuneWith_beside fun _ _ => rfl] at h
  obtain ⟨_, s₁, _, _, hscaled, h₁, -⟩ := Keeping.leaves_beside_bind_ok.mp h
  obtain ⟨-, rfl⟩ := Keeping.leaves_lift.mp hscaled
  -- The sink is looked up when it is its turn: no stage before that may change when it stores.
  obtain ⟨_, s₂, _, _, htuned, h₂, -⟩ := Keeping.leaves_beside_bind_ok.mp h₁
  have hsame : s₂.cadence? = s₁.cadence? :=
    congrArg (Option.map Sink.cadence) (keeps_tune c _ _ _ _ htuned).sink_eq
  obtain ⟨results, ⟨s₃, acts₃⟩, _, _, hdriven, h₃, -⟩ := Keeping.leaves_bind_ok.mp h₂
  obtain ⟨-, rfl, rfl⟩ := leaves_calling hdriven
  refine ⟨results, ?_⟩
  unfold actsOf
  cases hwarm : c.warmup with
  | true =>
    rw [hwarm, if_pos rfl] at h₃
    obtain ⟨hlog, rfl⟩ := Keeping.leaves_beside.mp h₃
    obtain ⟨-, rfl⟩ := Keeping.leaves_lift.mp hlog
    exact ⟨rfl, hsame⟩
  | false =>
    rw [hwarm, if_neg Bool.false_ne_true, compareWith_beside fun _ _ _ => rfl] at h₃
    obtain ⟨_, s₄, _, _, hjudged, h₄, -⟩ := Keeping.leaves_beside_bind_ok.mp h₃
    have hjudge : s₄.cadence? = s₃.cadence? :=
      congrArg (Option.map Sink.cadence) (keeps_compare c results _ _ _ _ hjudged).sink_eq
    obtain ⟨hstored, rfl⟩ := leaves_withSinkWith h₄ fun _ => rfl
    rw [accept_cadence hstored, hjudge, hsame, List.append_assoc]
    exact ⟨rfl, rfl⟩

/-- **Test cases that are finished** have all been served, by induction on them. -/
theorem runCasesActing_serves {number : Nat} {cases : List TestCase}
    (h : (p.runCasesWith act? metadata metrics number cases).Leaves (s, acts) evs (.ok ())
      (s', acts')) :
    ∃ new, acts' = acts ++ new ∧ Served p.run s.cadence? cases new ∧ s'.cadence? = s.cadence? := by
  induction cases generalizing number s acts evs with
  | nil =>
    obtain ⟨-, -, hs⟩ := Keeping.leaves_pure.mp h
    cases hs
    exact ⟨[], (List.append_nil _).symm, .none, rfl⟩
  | cons c rest ih =>
    obtain ⟨_, h₁, rfl⟩ := Keeping.leaves_beside_log_bind.mp h
    obtain ⟨_, h₂, rfl⟩ := Keeping.leaves_beside_log_bind.mp h₁
    obtain ⟨_, ⟨s₁, acts₁⟩, _, _, hcase, h₃, -⟩ := Keeping.leaves_bind_ok.mp h₂
    obtain ⟨results, rfl, hsame⟩ := runCaseActing_serves hcase
    obtain ⟨later, rfl, hlater, hlast⟩ := ih h₃
    rw [hsame] at hlater hlast
    exact ⟨_, List.append_assoc .., .more results (TestCase.copyFor_forRun p.run c) hlater, hlast⟩

/-- Closing a run enters the closing of its sink, and nothing else. -/
theorem wrapUpActing_closes (h : (p.wrapUpWith act?).Leaves (s, acts) evs (.ok ()) (s', acts')) :
    acts' = acts ++ closingActs s.cadence? := by
  unfold wrapUpWith at h
  rw [finishWith_beside fun _ => rfl] at h
  obtain ⟨_, ⟨s₁, acts₁⟩, _, _, hclosed, hended, -⟩ := Keeping.leaves_bind_ok.mp h
  obtain ⟨-, rfl⟩ := leaves_withSinkWith hclosed fun _ => rfl
  exact (Keeping.leaves_beside.mp hended).2

/-- **A start that ends well has served all of its test cases and closed its sink.** -/
theorem startActing_serves
    (h : p.startActing.Leaves (s, []) evs (.ok ()) (s', acts)) :
    ∃ served, acts = served ++ closingActs s.cadence? ∧
      Served p.run s.cadence? p.cases served := by
  unfold startActing startWith at h
  rw [connectWith_beside fun _ => rfl, deployWith_beside fun _ => rfl,
    reachWith_beside fun _ => rfl] at h
  obtain ⟨⟨metadata, metrics⟩, s₁, _, _, hconnecting, h₁, -⟩ := Keeping.leaves_beside_bind_ok.mp h
  obtain ⟨_, s₂, _, _, hdeploying, h₂, -⟩ := Keeping.leaves_beside_bind_ok.mp h₁
  obtain ⟨session, existed, rfl⟩ := opening_leaves hconnecting hdeploying
  obtain ⟨_, s₃, _, _, hreaching, h₃, -⟩ := Keeping.leaves_beside_bind_ok.mp h₂
  obtain ⟨-, -, rfl⟩ := Keeping.leaves_modify.mp hreaching
  obtain ⟨_, ⟨s₄, acts₄⟩, _, _, hcases, h₄, -⟩ := Keeping.leaves_bind_ok.mp h₃
  obtain ⟨served, hacts, hserved, hsame⟩ := runCasesActing_serves hcases
  refine ⟨served, ?_, hserved⟩
  rw [wrapUpActing_closes h₄, hacts, hsame]
  rfl

end

end Plan

/-! ### What is removed -/

section
variable {τ : Type}

/-- Whether a call to the cluster, if the event is one, succeeded. That a namespace is absent is
what a look at it waits for. -/
def Event.succeeds : Event τ → Bool
  | .asked (.api (.readNamespace _)) (.error fault) _ => fault.hasStatus ApiFault.notFound
  | .asked (.api _) (.error _) _ => false
  | _ => true

/-- The objects of a benchmark have been removed, and every call for it succeeded. -/
structure TornDown (existed : Bool) (ns : String) (evs : List (Event τ)) : Prop where
  /-- Every object of the plan is deleted by one call, in the order of the plan, and nothing else
  is. -/
  deletes : deletions evs = gone (Assets.removal existed ns)
  /-- A namespace of the benchmark's own is seen gone. -/
  seen : existed = false → SeenGone ns evs
  succeeds : ∀ e ∈ evs, e.succeeds = true

/-- A step that leaves a free run free when it ends well was not told then that the run is over. -/
theorem Action.Guards.not_fatal {α : Type} {a : Action τ α} (ha : a.Guards .free Standing.free.Well)
    {evs : List (Event τ)} {v : α} (h : a.Leaves evs (.ok v)) {q : Question} {reply : q.Reply}
    {time : τ} (hmem : .asked q reply time ∈ evs) : q.isFatal reply = false := by
  obtain ⟨hguarded, hwell⟩ := ha _ _ h
  obtain ⟨before, after, rfl⟩ := List.append_of_mem hmem
  cases hfatal : q.isFatal reply with
  | false => rfl
  | true =>
    have hover := (hguarded.over_after (Standing.next_fatal hfatal time)).2
    cases hover.symm.trans (hwell v rfl)

variable [TimeScale τ]

/-- **In a removal that ends well every call succeeded.** -/
theorem removeAssets_tears_down {pace : Pace τ} {timeout : τ} {existed : Bool} {ns : String}
    {evs : List (Event τ)} (h : (removeAssets pace timeout existed ns).Leaves evs (.ok ())) :
    TornDown existed ns evs where
  deletes := (removeAssets_plan h).2 rfl
  seen hexisted := by
    subst hexisted
    exact removeAssets_awaits h
  succeeds e he := by
    cases e with
    | asked q reply time =>
      have hfatal := (guards_removeAssets pace timeout existed ns).not_fatal h he
      have hasks := asks_removeAssets pace timeout existed ns _ _ h _ he
      -- A removal only deletes objects and looks at namespaces.
      cases q with
      | api call =>
        cases call with
        | delete object =>
          cases reply with
          | ok _ => rfl
          | error fault => cases hfatal
        | readNamespace name =>
          cases reply with
          | ok _ => rfl
          | error fault =>
            show fault.hasStatus ApiFault.notFound = true
            simpa [Question.isFatal] using hfatal
        | _ => exact hasks.elim
      | _ => exact hasks.elim
    | _ => rfl

/-- **A start that ends well and cleans up ends with such a removal.** -/
theorem Plan.start_tears_down {p : Plan τ} {session : Option Session} {sink : Option Sink}
    {evs : List (Event τ)} {s' : RunState} (hclean : p.cleanup = true)
    (h : p.start.Leaves (.fresh session sink) evs (.ok ()) s') :
    ∃ before removing, evs = before ++ removing ∧ TornDown s'.existed p.settings.ns removing := by
  cases start_course h with
  | @closed connecting deploying finished _ _ _ _ _ _ s₃ _ hconnecting hdeploying hfinished
      hclosing =>
    have hopened : s₃.torndown = false ∧ s₃.session.isSome = true := by
      obtain ⟨_, -, ⟨⟨_, hx⟩, -⟩ | ⟨-, hsession, rfl⟩⟩ := connect_leaves hconnecting
      · cases hx
      obtain ⟨_, hr, -⟩ | ⟨_, -, -, rfl⟩ := deployAssets_leaves hdeploying
      · cases hr
      obtain ⟨_, _, _, rfl⟩ := hfinished.along
      exact ⟨rfl, hsession⟩
    cases wrapUp_leaves hclosing with
    | kept hkeep _ =>
      rw [hclean] at hkeep
      cases hkeep
    | @removed storing removing _ _ _ _ hstoring hremoving =>
      obtain ⟨_, _, _, rfl⟩ := keeps_withSink _ _ _ _ _ hstoring
      have hremoved := removeAssets_tears_down (teardown_removes hremoving hopened.1 hopened.2)
      obtain ⟨rfl, -⟩ := teardown_leaves hremoving
      exact ⟨connecting ++ (deploying ++ (finished ++ storing)), removing, by simp, hremoved⟩

end
end IngressBench
