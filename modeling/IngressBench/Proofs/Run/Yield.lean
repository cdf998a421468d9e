import IngressBench.Proofs.Run.Turns

/-!
What test cases yield. A test case is completed once it has been measured and, if results are
compared, its results have been compared. An attempt completes its test case or is broken off before
(`Attempt.yields`), and finished rounds have completed theirs, with the results that were measured
(`Rounds.completed_eq`).
-/
namespace IngressBench

variable {τ : Type}

/-! ### Reading rows -/

/-- The documents that an event sends away to be stored, with their label. -/
def Event.indexed? : Event τ → Option (Document × Option String)
  | .asked (.index documents label) _ _ => some (documents, label)
  | _ => none

/-- The documents that were sent away, in order. -/
def indexed (evs : List (Event τ)) : List (Document × Option String) :=
  evs.filterMap Event.indexed?

/-- The test case that an event has measured, with its results. -/
def Event.measured? : Event τ → Option (TestCase × List Result)
  | .asked (.drive c _ _) (.ok results) _ => some (c, results)
  | _ => none

/-- The test cases that were measured successfully, in order. -/
def measured (evs : List (Event τ)) : List (TestCase × List Result) :=
  evs.filterMap Event.measured?

/-- The test case that an event completes, with its results: its measurement does, unless its
results are still to be compared. -/
def Event.completed? (judged : Bool) : Event τ → Option (TestCase × List Result)
  | .asked (.drive c _ _) (.ok results) _ => if judged && !c.warmup then none else some (c, results)
  | .asked (.compare c results) (.ok _) _ => some (c, results)
  | _ => none

/-- The test cases that a run completed, in order. -/
def Plan.completed (p : Plan τ) (evs : List (Event τ)) : List (TestCase × List Result) :=
  evs.filterMap (Event.completed? p.team.compare.isSome)

/-- The documents of test cases, one bundle for each of them that is no warm-up. -/
def bundles (rows : List (TestCase × List Result)) : List (List Document) :=
  (rows.filter fun row => !row.1.warmup).map fun row => row.2.map Result.document

/-- What is sent away when every bundle goes on its own. -/
def separately (rows : List (TestCase × List Result)) : List (Document × Option String) :=
  (bundles rows).map fun documents => (.list documents, none)

variable {p : Plan τ} {first rest evs : List (Event τ)}

theorem indexed_append (first rest : List (Event τ)) :
    indexed (first ++ rest) = indexed first ++ indexed rest :=
  List.filterMap_append

theorem measured_append (first rest : List (Event τ)) :
    measured (first ++ rest) = measured first ++ measured rest :=
  List.filterMap_append

theorem Plan.completed_append (p : Plan τ) (first rest : List (Event τ)) :
    p.completed (first ++ rest) = p.completed first ++ p.completed rest :=
  List.filterMap_append

theorem bundles_append (first rest : List (TestCase × List Result)) :
    bundles (first ++ rest) = bundles first ++ bundles rest := by
  simp [bundles]

theorem separately_append (first rest : List (TestCase × List Result)) :
    separately (first ++ rest) = separately first ++ separately rest := by
  simp [separately, bundles_append]

/-! ### Rows in which nothing is completed -/

/-- A question that measures, compares or stores. -/
def Question.Reports : Question → Prop
  | .drive .. | .compare .. | .index .. => True
  | _ => False

/-- A kind of questions without those that measure, compare or store. -/
def Silent (P : Question → Prop) : Prop :=
  ∀ q, P q → ¬ q.Reports

theorem Silent.filterMap {α : Type} {P : Question → Prop} (hP : Silent P) {f : Event τ → Option α}
    (hf : ∀ e, (f e).isSome = true → ∃ q r time, e = .asked q r time ∧ q.Reports)
    (h : ∀ e ∈ evs, e.Asks P) : evs.filterMap f = [] := by
  refine List.filterMap_eq_nil_iff.mpr fun e he => ?_
  have hask := h e he
  by_cases hsome : (f e).isSome = true
  · obtain ⟨q, r, time, rfl, hreports⟩ := hf e hsome
    exact absurd hreports (hP q hask)
  · simpa using hsome

theorem Event.reports_of_indexed {e : Event τ} (h : e.indexed?.isSome = true) :
    ∃ q r time, e = .asked q r time ∧ q.Reports := by
  cases e with
  | asked q r time =>
    cases q with
    | index documents label => exact ⟨_, r, time, rfl, trivial⟩
    | _ => cases h
  | _ => cases h

theorem Event.reports_of_measured {e : Event τ} (h : e.measured?.isSome = true) :
    ∃ q r time, e = .asked q r time ∧ q.Reports := by
  cases e with
  | asked q r time =>
    cases q with
    | drive c metadata podMetrics => exact ⟨_, r, time, rfl, trivial⟩
    | _ => cases h
  | _ => cases h

theorem Event.reports_of_completed {judged : Bool} {e : Event τ}
    (h : (e.completed? judged).isSome = true) : ∃ q r time, e = .asked q r time ∧ q.Reports := by
  cases e with
  | asked q r time =>
    cases q with
    | drive c metadata podMetrics => exact ⟨_, r, time, rfl, trivial⟩
    | compare c results => exact ⟨_, r, time, rfl, trivial⟩
    | _ => cases h
  | _ => cases h

theorem Silent.indexed {P : Question → Prop} (hP : Silent P) (h : ∀ e ∈ evs, e.Asks P) :
    indexed evs = [] :=
  hP.filterMap (fun _ => Event.reports_of_indexed) h

theorem Silent.measured {P : Question → Prop} (hP : Silent P) (h : ∀ e ∈ evs, e.Asks P) :
    measured evs = [] :=
  hP.filterMap (fun _ => Event.reports_of_measured) h

theorem Silent.completed {P : Question → Prop} (hP : Silent P) (p : Plan τ)
    (h : ∀ e ∈ evs, e.Asks P) : p.completed evs = [] :=
  hP.filterMap (fun _ => Event.reports_of_completed) h

theorem Silent.of_forall {P : Question → Prop}
    (hdrive : ∀ c metadata podMetrics, ¬ P (.drive c metadata podMetrics))
    (hcompare : ∀ c results, ¬ P (.compare c results))
    (hindex : ∀ documents label, ¬ P (.index documents label)) : Silent P := by
  intro q hq hr
  cases q with
  | drive => exact hdrive _ _ _ hq
  | compare => exact hcompare _ _ hq
  | index => exact hindex _ _ hq
  | _ => exact hr

theorem silent_false : Silent fun _ => False :=
  fun _ h => h.elim

theorem silent_removes (K : ObjectKind → Prop) : Silent (Question.Removes K) :=
  .of_forall (fun _ _ _ h => h) (fun _ _ h => h) (fun _ _ h => h)

theorem silent_opens (ns : String) : Silent (Question.Opens ns) :=
  .of_forall (fun _ _ _ h => h.elim id fun ⟨_, _, h⟩ => nomatch h)
    (fun _ _ h => h.elim id fun ⟨_, _, h⟩ => nomatch h)
    (fun _ _ h => h.elim id fun ⟨_, _, h⟩ => nomatch h)

theorem silent_prepares (ns : String) : Silent (Question.Prepares ns) := by
  refine .of_forall Question.Prepares.not_drive (fun _ _ h => ?_) fun _ _ h => ?_
  · rcases h.shape with ⟨_, h⟩ | ⟨_, h⟩ <;> cases h
  · rcases h.shape with ⟨_, h⟩ | ⟨_, h⟩ <;> cases h

namespace Plan

/-! ### What a row comes to -/

/-- What a row comes to: the test cases that it completes, those that it measures, and the documents
that it sends away. -/
structure Reads (p : Plan τ) (evs : List (Event τ)) (rows results : List (TestCase × List Result))
    (documents : List (Document × Option String)) : Prop where
  completed : p.completed evs = rows
  measured : measured evs = results
  indexed : indexed evs = documents

variable {rows rows' results results' : List (TestCase × List Result)}
  {documents documents' : List (Document × Option String)}

theorem Reads.append (hfirst : p.Reads first rows results documents)
    (hrest : p.Reads rest rows' results' documents') :
    p.Reads (first ++ rest) (rows ++ rows') (results ++ results') (documents ++ documents') where
  completed := by rw [completed_append, hfirst.completed, hrest.completed]
  measured := by rw [measured_append, hfirst.measured, hrest.measured]
  indexed := by rw [indexed_append, hfirst.indexed, hrest.indexed]

/-- A row without measurements, comparisons and deliveries comes to nothing. -/
theorem reads_silent {P : Question → Prop} (hP : Silent P) (h : ∀ e ∈ evs, e.Asks P) :
    p.Reads evs [] [] [] :=
  ⟨hP.completed p h, hP.measured h, hP.indexed h⟩

/-- Storing completes and measures nothing. -/
theorem reads_stores (h : ∀ e ∈ evs, e.Asks Question.Stores) : p.Reads evs [] [] (indexed evs) := by
  have hnone : ∀ e ∈ evs, e.completed? p.team.compare.isSome = none ∧ e.measured? = none := by
    intro e he
    have hask := h e he
    cases e with
    | asked q r time =>
      cases q with
      | drive => exact hask.elim
      | compare => exact hask.elim
      | _ => exact ⟨rfl, rfl⟩
    | _ => exact ⟨rfl, rfl⟩
  exact ⟨List.filterMap_eq_nil_iff.mpr fun e he => (hnone e he).1,
    List.filterMap_eq_nil_iff.mpr fun e he => (hnone e he).2, rfl⟩

variable {c : TestCase} {found : List Result} {podMetrics : Bool} {time : τ}
  {metadata : ClusterMetadata} {metrics : MetricsServer}

/-- A measurement completes its test case, unless the results are still to be compared. -/
theorem reads_drive (h : p.team.compare = none ∨ c.warmup = true) :
    p.Reads [.asked (.drive c metadata podMetrics) (.ok found) time]
      [(c, found)] [(c, found)] [] := by
  refine ⟨?_, rfl, rfl⟩
  rcases h with h | h
  · simp [completed, Event.completed?, h]
  · simp [completed, Event.completed?, h]

theorem reads_drive_judged (h : p.team.compare.isSome = true) (hwarm : c.warmup = false) :
    p.Reads [.asked (.drive c metadata podMetrics) (.ok found) time] [] [(c, found)] [] :=
  ⟨by simp [completed, Event.completed?, h, hwarm], rfl, rfl⟩

/-- A comparison completes its test case. -/
theorem reads_compare (verdict : Bool) :
    p.Reads [.asked (.compare c found) (.ok verdict) time] [(c, found)] [] [] :=
  ⟨rfl, rfl, rfl⟩

/-! ### What an attempt yields -/

variable {s s' : RunState} {r : Except Failure Unit}

/-- What an attempt at a test case yields: nothing, if it was broken off before the test case was
completed; otherwise its results, which a warm-up drops and any other test case hands to the sink.
-/
inductive Yield (p : Plan τ) (c : TestCase) (s : RunState) (evs : List (Event τ)) :
    Except Failure Unit → RunState → Prop
  | broken {results : List (TestCase × List Result)} {x : Failure} {s' : RunState}
      (hreads : p.Reads evs [] results []) (hsink : s'.sink = s.sink) :
      Yield p c s evs (.error x) s'
  | warm {found : List Result} {s' : RunState} (hwarm : c.warmup = true)
      (hreads : p.Reads evs [(c, found)] [(c, found)] []) (hsink : s'.sink = s.sink) :
      Yield p c s evs (.ok ()) s'
  | handed {found : List Result} {storing : List (Event τ)} {r : Except Failure Unit}
      {s₁ s' : RunState} (hwarm : c.warmup = false)
      (hreads : p.Reads evs [(c, found)] [(c, found)] (indexed storing)) (hsink : s₁.sink = s.sink)
      (hstoring : (withSink (Sink.accept (found.map some))).Leaves s₁ storing r s') :
      Yield p c s evs r s'

/-- What a row completes is what it measured first. -/
theorem Yield.completed_prefix (h : Yield p c s evs r s') :
    p.completed evs <+: measured evs ∧ (p.completed evs).map Prod.fst <+: [c] := by
  cases h with
  | broken hreads hsink =>
    rw [hreads.completed]
    exact ⟨List.nil_prefix, List.nil_prefix⟩
  | warm hwarm hreads hsink =>
    rw [hreads.completed, hreads.measured]
    exact ⟨List.prefix_refl _, List.prefix_refl _⟩
  | handed hwarm hreads hsink hstoring =>
    rw [hreads.completed, hreads.measured]
    exact ⟨List.prefix_refl _, List.prefix_refl _⟩

/-- A finished attempt has completed what it measured. -/
theorem Yield.completed_eq (h : Yield p c s evs (.ok ()) s') :
    p.completed evs = measured evs ∧ (p.completed evs).map Prod.fst = [c] := by
  cases h with
  | warm hwarm hreads hsink =>
    rw [hreads.completed, hreads.measured]
    exact ⟨rfl, rfl⟩
  | handed hwarm hreads hsink hstoring =>
    rw [hreads.completed, hreads.measured]
    exact ⟨rfl, rfl⟩

variable [TimeScale τ]

/-- What is completed by a comparison that ends so. -/
def judged (c : TestCase) (found : List Result) : Except Failure Unit → List (TestCase × List Result)
  | .ok _ => [(c, found)]
  | .error _ => []

/-- A measurement and its comparison complete the test case if the comparison ends well. -/
theorem reads_judged (hp : p.team.Observed) {found : List Result} {podMetrics : Bool} {time : τ}
    (hwarm : c.warmup = false) (h : (p.compare c found).Leaves s evs r s') :
    p.Reads (.asked (.drive c metadata podMetrics) (.ok found) time :: evs)
      (judged c found r) [(c, found)] [] := by
  obtain ⟨hnobody, rfl, rfl⟩ | ⟨reply, at_, lines, hjudged, rfl, hlines, rfl⟩ := compare_leaves hp h
  · exact reads_drive (.inl hnobody)
  · have hdrive : p.Reads [.asked (.drive c metadata podMetrics) (.ok found) time] []
        [(c, found)] [] := reads_drive_judged (by rw [hjudged]; rfl) hwarm
    have hrest := reads_silent (p := p) silent_false hlines
    cases reply with
    | ok verdict => exact hdrive.append ((reads_compare verdict).append hrest)
    | error x =>
      have hfault : p.Reads [.asked (.compare c found) (.error x) at_] [] [] [] := ⟨rfl, rfl, rfl⟩
      exact hdrive.append (hfault.append hrest)

theorem Attempt.yields (hp : p.team.Observed) (h : Attempt p metadata metrics c s evs r s') :
    Yield p c s evs r s' := by
  have hprepared : ∀ {prelude : List (Event τ)} {s₁ : RunState}, Prepared p c s prelude s₁ →
      p.Reads prelude [] [] [] ∧ s₁.sink = s.sink := fun h =>
    ⟨reads_silent (silent_prepares _) (h.asks hp), h.near.sink_eq⟩
  cases h with
  | unscaled hscaling =>
    exact .broken (reads_silent (silent_prepares _) (asks_reconcile _ _ _ _ _ _ _ hscaling)) rfl
  | @untuned _ tuning _ _ hscaling htuning =>
    have hscale := reads_silent (p := p) (silent_prepares _) (asks_reconcile _ _ _ _ _ _ _ hscaling)
    have htunes : ∀ e ∈ tuning, e.Asks (Question.Prepares p.settings.ns) := fun e he =>
      (asks_tune hp.asks_tune c _ _ _ _ htuning e he).mono fun _ h => .inr (.inr h)
    exact .broken (hscale.append (reads_silent (silent_prepares _) htunes))
      (keeps_tune c _ _ _ _ htuning).sink_eq
  | unmeasured hprelude hdriving =>
    obtain ⟨hreads, hsink⟩ := hprepared hprelude
    obtain ⟨time, rfl⟩ := hp.drive_leaves hdriving
    exact .broken (hreads.append ⟨rfl, rfl, rfl⟩) hsink
  | @warm _ _ found text _ hprelude hdriving hwarm =>
    obtain ⟨hreads, hsink⟩ := hprepared hprelude
    obtain ⟨time, rfl⟩ := hp.drive_leaves hdriving
    have hlog : p.Reads [.logged .info text] [] [] [] := ⟨rfl, rfl, rfl⟩
    exact .warm hwarm (hreads.append ((reads_drive (.inr hwarm)).append hlog)) hsink
  | uncompared hprelude hdriving hwarm hjudging =>
    obtain ⟨hreads, hsink⟩ := hprepared hprelude
    obtain ⟨time, rfl⟩ := hp.drive_leaves hdriving
    have hkept := (keeps_compare c _ _ _ _ _ hjudging).sink_eq
    exact .broken (hreads.append (reads_judged hp hwarm hjudging)) (hkept.trans hsink)
  | handed hprelude hdriving hwarm hjudging hstoring =>
    obtain ⟨hreads, hsink⟩ := hprepared hprelude
    obtain ⟨time, rfl⟩ := hp.drive_leaves hdriving
    have hkept := (keeps_compare c _ _ _ _ _ hjudging).sink_eq
    have hstore := reads_stores (p := p) (asks_withSink (Sink.asks_accept _) _ _ _ _ hstoring)
    exact .handed hwarm (hreads.append ((reads_judged hp hwarm hjudging).append hstore))
      (hkept.trans hsink) hstoring

/-! ### Finished rounds -/

theorem Rounds.completed_eq (hp : p.team.Observed) {done : List TestCase}
    (h : Rounds p metadata metrics done s evs s') :
    p.completed evs = measured evs ∧
      (p.completed evs).map Prod.fst = done.map (·.forRun p.run) := by
  induction h with
  | none => exact ⟨rfl, rfl⟩
  | @more c rest s s₁ s' evs later heading line first others ih =>
    obtain ⟨hall, hcase⟩ := (first.yields hp).completed_eq
    show p.completed (evs ++ later) = measured (evs ++ later) ∧
      (p.completed (evs ++ later)).map Prod.fst = _
    rw [completed_append, measured_append, hall, ih.1]
    refine ⟨rfl, ?_⟩
    rw [← hall, ← ih.1, List.map_append, hcase, ih.2]
    rfl

/-! ### Starts -/

/-- Closing a run completes and measures nothing, and only closing its sink sends documents away. -/
theorem Closing.reads (h : Closing p s evs r s') :
    ∃ (storing : List (Event τ)) (r₁ : Except Failure Unit) (s₁ : RunState),
      (withSink Sink.close).Leaves s storing r₁ s₁ ∧ p.Reads evs [] [] (indexed storing) := by
  have hremove : ∀ {removing : List (Event τ)} {r : Except Failure Unit} {s s' : RunState},
      p.teardown.Leaves s removing r s' → p.Reads removing [] [] [] := fun h =>
    reads_silent (silent_removes _) (asks_teardown _ _ _ _ h)
  have hstore : ∀ {storing : List (Event τ)} {r : Except Failure Unit} {s s' : RunState},
      (withSink Sink.close).Leaves s storing r s' →
        p.Reads storing [] [] (indexed storing) := fun h =>
    reads_stores (asks_withSink Sink.asks_close _ _ _ _ h)
  cases h with
  | unstored hstoring => exact ⟨_, _, _, hstoring, hstore hstoring⟩
  | kept _ hstoring => exact ⟨_, _, _, hstoring, hstore hstoring⟩
  | unremoved _ hstoring hremoving =>
    refine ⟨_, _, _, hstoring, ?_⟩
    have hreads := (hstore hstoring).append (hremove hremoving)
    rwa [List.append_nil (indexed _)] at hreads
  | removed _ hstoring hremoving =>
    refine ⟨_, _, _, hstoring, ?_⟩
    have hreads := (hstore hstoring).append (hremove hremoving)
    rwa [List.append_nil (indexed _)] at hreads

omit [TimeScale τ] in
/-- Two lines of the log yield nothing. -/
theorem Yield.lines (h : Yield p c s evs r s') (heading line : String) :
    Yield p c s (.logged .info heading :: .logged .info line :: evs) r s' := by
  have hlines : ∀ {rows results : List (TestCase × List Result)}
      {documents : List (Document × Option String)}, p.Reads evs rows results documents →
        p.Reads (.logged .info heading :: .logged .info line :: evs) rows results documents :=
    fun h => ⟨h.completed, h.measured, h.indexed⟩
  cases h with
  | broken hreads hsink => exact .broken (hlines hreads) hsink
  | warm hwarm hreads hsink => exact .warm hwarm (hlines hreads) hsink
  | handed hwarm hreads hsink hstoring => exact .handed hwarm (hlines hreads) hsink hstoring

/-- What a start comes to: it is broken off before its first test case or in the middle of one, or
it finishes all of them and closes. -/
inductive Story (p : Plan τ) (s : RunState) : List (Event τ) → Except Failure Unit → RunState → Prop
  | early {evs : List (Event τ)} {x : Failure} {s' : RunState}
      (hreads : p.Reads evs [] [] [])
      (hphase : s.phase.isDeployed = false → s'.phase.isDeployed = false) :
      Story p s evs (.error x) s'
  | broken {opening finished body : List (Event τ)} {metadata : ClusterMetadata}
      {metrics : MetricsServer} {done left : List TestCase} {c : TestCase} {x : Failure}
      {s₁ s₂ s' : RunState}
      (hopening : p.Reads opening [] [] [])
      (hcases : p.cases = done ++ c :: left)
      (hfinished : Rounds p metadata metrics done s₁ finished s₂)
      (hbroken : Yield p (c.forRun p.run) s₂ body (.error x) s')
      (hsink : s₁.sink = s.sink) (hphase : s'.phase.isOpen = true) :
      Story p s (opening ++ (finished ++ body)) (.error x) s'
  | closed {opening finished closing : List (Event τ)} {metadata : ClusterMetadata}
      {metrics : MetricsServer} {r : Except Failure Unit} {s₁ s₂ s' : RunState}
      (hopening : p.Reads opening [] [] [])
      (hfinished : Rounds p metadata metrics p.cases s₁ finished s₂)
      (hclosing : Closing p s₂ closing r s')
      (hsink : s₁.sink = s.sink) (hphase : s₁.phase.isDeployed = true) :
      Story p s (opening ++ (finished ++ closing)) r s'

theorem Course.story (hp : p.team.Observed) (h : Course p s evs r s') : Story p s evs r s' := by
  have hopen : ∀ {opening : List (Event τ)}, (∀ e ∈ opening, e.Asks (Question.Opens p.settings.ns)) →

      p.Reads opening [] [] [] := reads_silent (silent_opens _)
  cases h with
  | unconnected hconnecting =>
    have hreads := hopen fun e he =>
      (asks_connect hp.asks_connect _ _ _ _ hconnecting e he).mono fun _ => .inl
    obtain ⟨session, -, ⟨-, rfl⟩ | ⟨⟨_, hv⟩, -⟩⟩ := connect_leaves hconnecting
    · exact .early hreads id
    · cases hv
  | undeployed hconnecting hdeploying =>
    have hreads := hopen (asks_opening hp hconnecting hdeploying)
    obtain ⟨session, -, ⟨⟨_, hx⟩, -⟩ | ⟨-, -, rfl⟩⟩ := connect_leaves hconnecting
    · cases hx
    obtain ⟨x, -, -, rfl⟩ | ⟨existed, hr, -⟩ := deployAssets_leaves hdeploying
    · exact .early hreads fun _ => rfl
    · cases hr
  | @broken _ _ _ _ _ _ _ _ _ heading line _ _ _ _ _ hconnecting hdeploying hcases hfinished
      hbroken =>
    have hreads := hopen (asks_opening hp hconnecting hdeploying)
    obtain ⟨session, existed, rfl⟩ := opening_leaves hconnecting hdeploying
    rw [← List.append_assoc]
    have hphase := (hfinished.along.trans hbroken.along).phase_eq
    refine .broken hreads hcases hfinished ((hbroken.yields hp).lines heading line) rfl ?_
    rw [hphase]
    rfl
  | closed hconnecting hdeploying hfinished hclosing =>
    have hreads := hopen (asks_opening hp hconnecting hdeploying)
    obtain ⟨session, existed, rfl⟩ := opening_leaves hconnecting hdeploying
    rw [← List.append_assoc]
    exact .closed hreads hfinished (wrapUp_leaves hclosing) rfl rfl

/-- What a start completes are the first test cases, with what it measured for them. -/
theorem Story.completed_prefix (hp : p.team.Observed) (h : Story p s evs r s') :
    p.completed evs <+: measured evs ∧
      (p.completed evs).map Prod.fst <+: p.cases.map (·.forRun p.run) := by
  cases h with
  | early hreads _ =>
    rw [hreads.completed]
    exact ⟨List.nil_prefix, List.nil_prefix⟩
  | @broken _ finished body _ _ done left c _ _ _ _ hopening hcases hfinished hbroken _ _ =>
    obtain ⟨hall, hdone⟩ := hfinished.completed_eq hp
    obtain ⟨hlast, hcase⟩ := hbroken.completed_prefix
    rw [measured_append, completed_append, hopening.measured, hopening.completed, measured_append,
      completed_append]
    show p.completed finished ++ p.completed body <+: measured finished ++ measured body ∧
      (p.completed finished ++ p.completed body).map Prod.fst <+: _
    rw [List.map_append, hdone, hall, hcases, List.map_append]
    refine ⟨(List.prefix_append_right_inj _).mpr hlast, (List.prefix_append_right_inj _).mpr ?_⟩
    exact hcase.trans ((List.cons_prefix_cons).mpr ⟨rfl, List.nil_prefix⟩)
  | closed hopening hfinished hclosing _ _ =>
    obtain ⟨hall, hdone⟩ := hfinished.completed_eq hp
    obtain ⟨storing, _, _, -, hclose⟩ := hclosing.reads
    rw [measured_append, completed_append, hopening.measured, hopening.completed, measured_append,
      completed_append, hclose.measured, hclose.completed, List.append_nil, List.append_nil]
    exact ⟨hall ▸ List.prefix_refl _, hdone ▸ List.prefix_refl _⟩

/-- Every test case was completed, in a run that got as far as running them. -/
def CompletedAll (p : Plan τ) (trace : List (Event τ)) (final : RunState) : Prop :=
  final.phase.isDeployed = true ∧
    (p.completed trace).map Prod.fst = p.cases.map (·.forRun p.run)

/-- A start completes every test case, unless it fails before its sink is closed. -/
theorem Story.whole (hp : p.team.Observed) (h : Story p s evs r s')
    (hphase : s.phase.isDeployed = false) :
    CompletedAll p evs s' ∨ (∃ x, r = .error x) ∧ s'.phase.isOpen = true := by
  cases h with
  | early _ hearly =>
    have hfinal := hearly hphase
    refine .inr ⟨⟨_, rfl⟩, ?_⟩
    cases hs' : s'.phase with
    | init => rfl
    | connected => rfl
    | _ => simp [hs', Phase.isDeployed] at hfinal
  | broken _ _ _ _ _ hopen => exact .inr ⟨⟨_, rfl⟩, hopen⟩
  | closed hopening hfinished hclosing _ hdeployed =>
    refine .inl ⟨hclosing.isDeployed ?_, ?_⟩
    · rw [hfinished.along.phase_eq]
      exact hdeployed
    · obtain ⟨storing, _, _, -, hclose⟩ := hclosing.reads
      rw [completed_append, hopening.completed, completed_append, hclose.completed, List.append_nil,
        List.nil_append]
      exact (hfinished.completed_eq hp).2

end Plan
end IngressBench
