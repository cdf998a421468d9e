import IngressBench.Proofs.Run.Sample
import IngressBench.Proofs.Run.Yield

/-!
The delivery of documents. A test case is completed once it has been measured and, if results are
compared, its results have been compared. A streaming sink sends the documents of every completed
test case away at once, on their own; a batch sink sends all of them away together, with its label,
after every test case has been completed, and none of them before. Warm-ups have no documents
(`start_delivers`).

So documents are neither lost nor sent twice, also when some of them cannot be stored and when the
run is broken off; and where both kinds of sink see all test cases completed with the same results,
they send the same documents in the same order.
-/
namespace IngressBench.Plan

variable {τ : Type} [TimeScale τ] {p : Plan τ} {c : TestCase} {s s' : RunState}
  {evs : List (Event τ)}
  {r : Except Failure Unit} {metadata : ClusterMetadata} {metrics : MetricsServer}

/-! ### Deliveries -/

/-- A streaming sink of the surroundings that keeps nothing. -/
def streaming : Sink :=
  { cadence := .streaming, store := .outside }

/-- A batch sink of the surroundings that keeps documents. -/
def batch (label : String) (buffer : List Document) : Sink :=
  { cadence := .batch label, store := .outside, buffer }

omit [TimeScale τ] in
theorem indexed_deliver {label : Option String} {documents : List Document} {evs : List (Event τ)}
    {r : Except Failure Bool} (h : (Sink.deliver .outside label documents).Leaves evs r) :
    indexed evs = [(.list documents, label)] := by
  obtain ⟨reply, time, lines, rfl, hlines, -⟩ := Sink.deliver_leaves h
  show (_, label) :: indexed lines = _
  rw [silent_false.indexed hlines]

/-! ### Streaming sinks -/

omit [TimeScale τ] in
/-- **A streaming sink sends the documents of a completed test case away**, and keeps none. -/
theorem Yield.streams (h : Yield p c s evs r s') (hs : s.sink = some streaming) :
    indexed evs = separately (p.completed evs) ∧ s'.sink = some streaming := by
  cases h with
  | broken hreads hsink =>
    rw [hreads.indexed, hreads.completed, hsink, hs]
    exact ⟨rfl, rfl⟩
  | warm hwarm hreads hsink =>
    rw [hreads.indexed, hreads.completed, hsink, hs]
    exact ⟨by simp [separately, bundles, hwarm], rfl⟩
  | @handed found storing _ s₁ _ hwarm hreads hsink hstoring =>
    rw [hs] at hsink
    rw [hreads.indexed, hreads.completed]
    rcases withSink_leaves hstoring with ⟨hnone, -⟩ | ⟨sink, sink', hsome, haccept, rfl⟩
    · rw [hnone] at hsink
      cases hsink
    · rw [hsome] at hsink
      cases hsink
      obtain ⟨rfl, outcome, hdeliver, -⟩ := Sink.accept_leaves_streaming rfl haccept
      refine ⟨?_, rfl⟩
      rw [indexed_deliver hdeliver]
      simp [separately, bundles, hwarm, streaming]

theorem Rounds.streams (hp : p.team.Observed) {done : List TestCase}
    (h : Rounds p metadata metrics done s evs s') (hs : s.sink = some streaming) :
    indexed evs = separately (p.completed evs) ∧ s'.sink = some streaming := by
  induction h with
  | none => exact ⟨rfl, hs⟩
  | @more c rest s s₁ s' evs later heading line first others ih =>
    obtain ⟨hfirst, hs₁⟩ := (first.yields hp).streams hs
    obtain ⟨hothers, hs'⟩ := ih hs₁
    refine ⟨?_, hs'⟩
    show indexed (evs ++ later) = separately (p.completed (evs ++ later))
    rw [indexed_append, completed_append, separately_append, hfirst, hothers]

omit [TimeScale τ] in
/-- A streaming sink that keeps nothing sends nothing when it is closed. -/
theorem close_streams {storing : List (Event τ)}
    (h : (withSink Sink.close).Leaves s storing r s') (hs : s.sink = some streaming) :
    indexed storing = [] := by
  rcases withSink_leaves h with ⟨-, rfl, -⟩ | ⟨sink, sink', hsome, hclose, -⟩
  · rfl
  · rw [hsome] at hs
    cases hs
    obtain ⟨-, rfl, -⟩ := Sink.close_leaves_streaming rfl rfl hclose
    rfl

/-- **A start with a streaming sink sends every completed bundle away once**, in order. -/
theorem Story.streams (hp : p.team.Observed) (h : Story p s evs r s')
    (hs : s.sink = some streaming) : indexed evs = separately (p.completed evs) := by
  cases h with
  | early hreads _ =>
    rw [hreads.indexed, hreads.completed]
    rfl
  | broken hopening _ hfinished hbroken hsink _ =>
    obtain ⟨hrounds, hs₁⟩ := hfinished.streams hp (hsink.trans hs)
    obtain ⟨hlast, -⟩ := hbroken.streams hs₁
    rw [indexed_append, completed_append, hopening.indexed, hopening.completed, indexed_append,
      completed_append, hrounds, hlast]
    exact (separately_append _ _).symm
  | closed hopening hfinished hclosing hsink _ =>
    obtain ⟨hrounds, hs₁⟩ := hfinished.streams hp (hsink.trans hs)
    obtain ⟨storing, _, _, hstoring, hclose⟩ := hclosing.reads
    rw [close_streams hstoring hs₁] at hclose
    rw [indexed_append, completed_append, hopening.indexed, hopening.completed, indexed_append,
      completed_append, hrounds, hclose.indexed, hclose.completed, List.append_nil, List.append_nil]
    rfl

/-- At any event of a turn a streaming sink has sent away what was completed before. -/
theorem InTurn.streams (hp : p.team.Observed) {before : List (Event τ)}
    (h : InTurn p (some streaming) c before) :
    indexed before = separately (p.completed before) := by
  obtain ⟨hopening, -, hfinished, hsink, hrest⟩ := h
  have hopen := reads_silent (p := p) (silent_opens _) hopening
  have hprepared := reads_silent (p := p) (silent_prepares _) hrest
  rw [indexed_append, completed_append, hopen.indexed, hopen.completed, indexed_append,
    completed_append, (hfinished.streams hp hsink).1, hprepared.indexed, hprepared.completed,
    List.append_nil, List.append_nil]
  rfl

/-! ### Batch sinks -/

omit [TimeScale τ] in
/-- **A batch sink keeps the documents of a completed test case**, and sends none away. -/
theorem Yield.batches {label : String} {buffer : List Document} (h : Yield p c s evs r s')
    (hs : s.sink = some (batch label buffer)) :
    indexed evs = [] ∧
      s'.sink = some (batch label (buffer ++ (bundles (p.completed evs)).flatten)) ∧
      ((∃ x, r = .error x) → p.completed evs = []) := by
  cases h with
  | broken hreads hsink =>
    rw [hreads.indexed, hreads.completed, hsink, hs]
    refine ⟨rfl, ?_, fun _ => rfl⟩
    simp [bundles]
  | warm hwarm hreads hsink =>
    rw [hreads.indexed, hreads.completed, hsink, hs]
    refine ⟨rfl, ?_, by simp⟩
    simp [bundles, hwarm]
  | @handed found storing _ s₁ _ hwarm hreads hsink hstoring =>
    rw [hs] at hsink
    rw [hreads.indexed, hreads.completed]
    rcases withSink_leaves hstoring with ⟨hnone, -⟩ | ⟨sink, sink', hsome, haccept, rfl⟩
    · rw [hnone] at hsink
      cases hsink
    · rw [hsome] at hsink
      cases hsink
      obtain ⟨rfl, rfl, rfl⟩ := Sink.accept_leaves_batch rfl haccept
      refine ⟨rfl, ?_, by simp⟩
      simp [bundles, hwarm, batch]

theorem Rounds.batches (hp : p.team.Observed) {done : List TestCase} {label : String}
    {buffer : List Document} (h : Rounds p metadata metrics done s evs s')
    (hs : s.sink = some (batch label buffer)) :
    indexed evs = [] ∧
      s'.sink = some (batch label (buffer ++ (bundles (p.completed evs)).flatten)) := by
  induction h generalizing buffer with
  | none =>
    refine ⟨rfl, ?_⟩
    rw [hs]
    simp [bundles, completed]
  | @more c rest s s₁ s' evs later heading line first others ih =>
    obtain ⟨hfirst, hs₁, -⟩ := (first.yields hp).batches hs
    obtain ⟨hothers, hs'⟩ := ih hs₁
    show indexed (evs ++ later) = [] ∧
      s'.sink = some (batch label (buffer ++ (bundles (p.completed (evs ++ later))).flatten))
    rw [indexed_append, hfirst, hothers, completed_append, bundles_append, List.flatten_append, hs',
      List.append_assoc]
    exact ⟨rfl, rfl⟩

omit [TimeScale τ] in
/-- A batch sink sends away all that it kept when it is closed. -/
theorem close_batches {storing : List (Event τ)} {label : String} {buffer : List Document}
    (h : (withSink Sink.close).Leaves s storing r s') (hs : s.sink = some (batch label buffer)) :
    indexed storing = [(.list buffer, some label)] := by
  rcases withSink_leaves h with ⟨hnone, -⟩ | ⟨sink, sink', hsome, hclose, -⟩
  · rw [hnone] at hs
    cases hs
  · rw [hsome] at hs
    cases hs
    obtain ⟨-, outcome, hdeliver, -⟩ := Sink.close_leaves_batch rfl hclose
    exact indexed_deliver hdeliver

/-- **A start with a batch sink sends all documents away together** once every test case has been
completed, and nothing otherwise. -/
theorem Story.batches (hp : p.team.Observed) {label : String} (h : Story p s evs r s')
    (hs : s.sink = some (batch label [])) (hphase : s.phase.isDeployed = false) :
    (CompletedAll p evs s' ∧
        indexed evs = [(.list (bundles (p.completed evs)).flatten, some label)]) ∨
      ¬ CompletedAll p evs s' ∧ indexed evs = [] := by
  cases h with
  | early hreads hdeployed =>
    refine .inr ⟨fun h => ?_, hreads.indexed⟩
    rw [CompletedAll, hdeployed hphase] at h
    exact absurd h.1 Bool.false_ne_true
  | @broken _ _ _ _ _ done left c _ _ _ _ hopening hcases hfinished hbroken hsink _ =>
    obtain ⟨hrounds, hs₁⟩ := hfinished.batches hp (hsink.trans hs)
    obtain ⟨hlast, -, hnothing⟩ := hbroken.batches hs₁
    refine .inr ⟨fun ⟨_, h⟩ => ?_, ?_⟩
    · rw [completed_append, hopening.completed, completed_append, hnothing ⟨_, rfl⟩,
        List.append_nil, List.nil_append, (hfinished.completed_eq hp).2, hcases] at h
      have hlength := congrArg List.length h
      simp at hlength
    · rw [indexed_append, hopening.indexed, indexed_append, hrounds, hlast]
      rfl
  | closed hopening hfinished hclosing hsink hdeployed =>
    obtain ⟨hrounds, hs₁⟩ := hfinished.batches hp (hsink.trans hs)
    obtain ⟨storing, _, _, hstoring, hclose⟩ := hclosing.reads
    have hsent := close_batches hstoring hs₁
    refine .inl ⟨⟨hclosing.isDeployed ?_, ?_⟩, ?_⟩
    · rw [hfinished.along.phase_eq]
      exact hdeployed
    · rw [completed_append, hopening.completed, completed_append, hclose.completed, List.append_nil,
        List.nil_append]
      exact (hfinished.completed_eq hp).2
    · rw [indexed_append, hopening.indexed, indexed_append, hrounds, hclose.indexed, hsent,
        completed_append, hopening.completed, completed_append, hclose.completed, List.append_nil]
      rfl

omit [TimeScale τ] in
theorem indexed_ne_nil {before after : List (Event τ)} {documents : Document}
    {label : Option String} {reply : Except Failure Document} {time : τ} :
    indexed (before ++ .asked (.index documents label) reply time :: after) ≠ [] := by
  rw [indexed_append]
  show indexed before ++ (documents, label) :: indexed after ≠ []
  simp

/-- A batch sink sends documents away only after all test cases. -/
theorem Story.late (hp : p.team.Observed) {label : String} (h : Story p s evs r s')
    (hs : s.sink = some (batch label [])) {before after : List (Event τ)} {documents : Document}
    {given : Option String} {reply : Except Failure Document} {time : τ}
    (hevs : evs = before ++ .asked (.index documents given) reply time :: after) :
    (p.completed before).map Prod.fst = p.cases.map (·.forRun p.run) ∧
      ∀ e ∈ after, e.Asks fun q => ∀ ns, ¬ q.TakesTurn ns := by
  cases h with
  | early hreads _ =>
    rw [hevs] at hreads
    exact absurd hreads.indexed indexed_ne_nil
  | broken hopening _ hfinished hbroken hsink _ =>
    obtain ⟨hrounds, hs₁⟩ := hfinished.batches hp (hsink.trans hs)
    have hnone := congrArg indexed hevs
    rw [indexed_append, hopening.indexed, indexed_append, hrounds, (hbroken.batches hs₁).1] at hnone
    exact absurd hnone.symm indexed_ne_nil
  | closed hopening hfinished hclosing hsink _ =>
    rcases append_eq_append_cons hevs with ⟨_, ho, -⟩ | ⟨before₁, rfl, hevs₁⟩
    · rw [ho] at hopening
      exact absurd hopening.indexed indexed_ne_nil
    rcases append_eq_append_cons hevs₁ with ⟨_, hf, -⟩ | ⟨before₂, rfl, hevs₂⟩
    · have hnone := (hfinished.batches hp (hsink.trans hs)).1
      rw [hf] at hnone
      exact absurd hnone indexed_ne_nil
    obtain ⟨_, _, _, -, hclose⟩ := hclosing.reads
    have hcompleted := hclose.completed
    rw [hevs₂, completed_append] at hcompleted
    constructor
    · rw [completed_append, hopening.completed, completed_append,
        (List.append_eq_nil_iff.mp hcompleted).1, List.append_nil, List.nil_append]
      exact (hfinished.completed_eq hp).2
    · intro e he
      have hmem : e ∈ before₂ ++ .asked (.index documents given) reply time :: after :=
        List.mem_append_right _ (List.mem_cons_of_mem _ he)
      exact (hclosing.asks e (hevs₂ ▸ hmem)).mono fun q hq ns => noTurns_closes ns q hq

/-! ### Starts -/

/-- A start completes test cases in order, with the results that were measured for them, and all of
them unless it fails before its sink is closed. -/
structure InOrder (p : Plan τ) (trace : List (Event τ)) (outcome : Except Failure Unit)
    (final : RunState) : Prop where
  first : (p.completed trace).map Prod.fst <+: p.cases.map (·.forRun p.run)
  found : p.completed trace <+: measured trace
  whole : CompletedAll p trace final ∨ (∃ x, outcome = .error x) ∧ final.phase.isOpen = true

/-- What a streaming sink sends away. -/
structure Streamed (p : Plan τ) (trace : List (Event τ)) : Prop where
  /-- The documents of every completed test case that is no warm-up, on their own, in order and
  once. -/
  sent : indexed trace = separately (p.completed trace)
  /-- Before a measurement, and before any call about a deployment of the benchmark, all that was
  completed so far has been sent away. -/
  prompt : ∀ {before after : List (Event τ)} {q : Question} {reply : q.Reply} {time : τ},
    trace = before ++ .asked q reply time :: after → q.TakesTurn p.settings.ns →
      indexed before = separately (p.completed before)

/-- What a batch sink sends away. -/
structure Batched (p : Plan τ) (label : String) (trace : List (Event τ)) (final : RunState) :
    Prop where
  /-- When every test case has been completed, all documents together and once. -/
  sent : CompletedAll p trace final →
    indexed trace = [(.list (bundles (p.completed trace)).flatten, some label)]
  /-- Otherwise nothing. -/
  kept : ¬ CompletedAll p trace final → indexed trace = []
  /-- And not before every test case has been completed and every turn is over. -/
  late : ∀ {before after : List (Event τ)} {documents : Document} {given : Option String}
      {reply : Except Failure Document} {time : τ},
    trace = before ++ .asked (.index documents given) reply time :: after →
      (p.completed before).map Prod.fst = p.cases.map (·.forRun p.run) ∧
        ∀ e ∈ after, e.Asks fun q => ∀ ns, ¬ q.TakesTurn ns

/-- The same documents, one bundle after the other and all together. -/
def SameDocuments (label : String) (streamed batched : List (Document × Option String)) : Prop :=
  ∃ parts : List (List Document), streamed = parts.map (fun part => (.list part, none)) ∧
    batched = [(.list parts.flatten, some label)]

theorem Course.inOrder (hp : p.team.Observed) (h : Course p s evs r s')
    (hphase : s.phase.isDeployed = false) : InOrder p evs r s' := by
  have hstory := h.story hp
  obtain ⟨hfound, hfirst⟩ := hstory.completed_prefix hp
  exact ⟨hfirst, hfound, hstory.whole hp hphase⟩

theorem Course.streamed (hp : p.team.Observed) (h : Course p s evs r s')
    (hs : s.sink = some streaming) : Streamed p evs := by
  refine ⟨(h.story hp).streams hp hs, ?_⟩
  intro before after q reply time hevs hq
  obtain ⟨c, hturn, -⟩ := h.in_turn hp hevs hq
  rw [hs] at hturn
  exact hturn.streams hp

theorem Course.batched (hp : p.team.Observed) {label : String} (h : Course p s evs r s')
    (hs : s.sink = some (batch label [])) (hphase : s.phase.isDeployed = false) :
    Batched p label evs s' := by
  have hstory := h.story hp
  have hbatches := hstory.batches hp hs hphase
  refine ⟨fun hall => ?_, fun hnot => ?_, hstory.late hp hs⟩
  · rcases hbatches with ⟨-, hsent⟩ | ⟨hnot, -⟩
    · exact hsent
    · exact absurd hall hnot
  · rcases hbatches with ⟨hall, -⟩ | ⟨-, hkept⟩
    · exact absurd hall hnot
    · exact hkept

omit [TimeScale τ] in
/-- Where both kinds of sink see the same results, they send the same documents away. -/
theorem Streamed.agrees {streamed batched : List (Event τ)} {label : String}
    {final : RunState} (h : Streamed p streamed) (h' : Batched p label batched final)
    (hsame : p.completed streamed = p.completed batched) (hall : CompletedAll p batched final) :
    SameDocuments label (indexed streamed) (indexed batched) := by
  refine ⟨bundles (p.completed streamed), h.sent, ?_⟩
  rw [hsame]
  exact h'.sent hall

/-- **Starts deliver every document once.** A streaming sink sends the documents of a completed test
case away before the next one begins; a batch sink sends all of them away at the end; and both send
the same, whatever the surroundings of an observed team answer. -/
theorem start_delivers {σ₁ σ₂ : Type} (p : Plan τ) (hp : p.team.Observed) (label : String)
    (w₁ : World τ σ₁) (now₁ : τ) (world₁ : σ₁) (session₁ : Option Session)
    (w₂ : World τ σ₂) (now₂ : τ) (world₂ : σ₂) (session₂ : Option Session) :
    let streamed := w₁.trace now₁ world₁ (p.start.perform (.fresh session₁ (some streaming)))
    let batched := w₂.trace now₂ world₂ (p.start.perform (.fresh session₂ (some (batch label []))))
    (InOrder p streamed.2 streamed.1.1 streamed.1.2 ∧ Streamed p streamed.2) ∧
      (InOrder p batched.2 batched.1.1 batched.1.2 ∧ Batched p label batched.2 batched.1.2) ∧
      (p.completed streamed.2 = p.completed batched.2 → CompletedAll p batched.2 batched.1.2 →
        SameDocuments label (indexed streamed.2) (indexed batched.2)) := by
  intro streamed batched
  have hstreaming := start_course (w₁.trace_leaves now₁ world₁
    (p.start.perform (.fresh session₁ (some streaming))))
  have hbatch := start_course (w₂.trace_leaves now₂ world₂
    (p.start.perform (.fresh session₂ (some (batch label [])))))
  have hstreamed := hstreaming.streamed hp rfl
  have hbatched := hbatch.batched hp rfl rfl
  exact ⟨⟨hstreaming.inOrder hp rfl, hstreamed⟩, ⟨hbatch.inOrder hp rfl, hbatched⟩,
    hstreamed.agrees hbatched⟩

/-! ### Measurements that depend on the test case -/

/-- In surroundings whose measurements depend on the test case only, a trace measures what the test
cases give. -/
theorem measured_results {σ α : Type} {f : TestCase → List Result} (w : World τ σ)
    (hw : ∀ c metadata podMetrics state,
      (w.answer (.drive c metadata podMetrics) state).1 = .ok (f c))
    (now : τ) (world : σ) (program : Program τ α) :
    ∀ row ∈ measured (w.trace now world program).2, row.2 = f row.1 := by
  intro row hrow
  obtain ⟨e, he, hmeasured⟩ := List.mem_filterMap.mp hrow
  have hanswered := w.trace_answered now world program e he
  cases e with
  | asked q reply time =>
    cases q with
    | drive c metadata podMetrics =>
      obtain ⟨state, rfl⟩ := hanswered
      rw [hw] at hmeasured
      cases hmeasured
      rfl
    | _ => cases hmeasured
  | _ => cases hmeasured

omit [TimeScale τ] in
theorem InOrder.completed_eq {f : TestCase → List Result} (h : InOrder p evs r s')
    (hall : CompletedAll p evs s') (hf : ∀ row ∈ measured evs, row.2 = f row.1) :
    p.completed evs = (p.cases.map (·.forRun p.run)).map fun c => (c, f c) := by
  have hrow : ∀ row ∈ p.completed evs, (row.1, f row.1) = row := fun row hrow => by
    rw [← hf row (h.found.subset hrow)]
  rw [← hall.2, List.map_map]
  exact (List.map_id _).symm.trans (List.map_congr_left fun row h => (hrow row h).symm)

/-- Surroundings that refuse all documents, with an ideal cluster. -/
def refusing : World Nat Ideal where
  answer q s := match q with
    | .index .. => (.error (.indexing (.said "refused")), 1, s)
    | q => Sample.ideal.answer q s

/-- Two test cases and a warm-up between them: both kinds of sink send the documents of the two test
cases away, also when the streaming one is refused each time. -/
theorem start_delivers_refused :
    let p := Sample.plan [{ uuid := "a" }, { warmup := true }, { uuid := "b" }]
    let streamed := refusing.trace 0 {} (p.start.perform (.fresh none (some streaming)))
    let batched := Sample.ideal.trace 0 {} (p.start.perform (.fresh none (some (batch "run" []))))
    p.team.Observed ∧ Streamed p streamed.2 ∧ Batched p "run" batched.2 batched.1.2 ∧
      (indexed streamed.2).length = 2 ∧
      SameDocuments "run" (indexed streamed.2) (indexed batched.2) :=
  have h := start_delivers _ Sample.team_observed "run" refusing 0 {} none Sample.ideal 0 {} none
  have hstreamed := h.1.1.whole.resolve_right fun h => absurd h.2 (by decide +kernel)
  have hbatched := h.2.1.1.whole.resolve_right fun h => absurd h.2 (by decide +kernel)
  have hmine := h.1.1.completed_eq (f := fun c => [Sample.result c]) hstreamed
    (measured_results refusing (fun _ _ _ _ => rfl) _ _ _)
  have hother := h.2.1.1.completed_eq (f := fun c => [Sample.result c]) hbatched
    (measured_results Sample.ideal (fun _ _ _ _ => rfl) _ _ _)
  ⟨Sample.team_observed, h.1.2, h.2.1.2, by decide +kernel,
    h.2.2 (hmine.trans hother.symm) hbatched⟩

end IngressBench.Plan
