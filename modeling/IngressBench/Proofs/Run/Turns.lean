import IngressBench.Proofs.Run.Changes
import IngressBench.Proofs.Run.Stages

/-!
The turns of test cases. A measurement, or a call about a deployment of the benchmark, belongs to
the turn of a test case. Turns do not overlap: what comes before such an event is an opening, the
finished rounds of the test cases before its own one, and what prepares its own one
(`Course.in_turn`). So the test cases that are measured are the first ones (`Course.driven_prefix`),
and all of them unless the start fails early (`Course.complete`).
-/
namespace IngressBench

variable {τ : Type}

/-! ### Measurements -/

/-- The test case that an event is the measurement of. -/
def Event.driven? : Event τ → Option TestCase
  | .asked (.drive c _ _) _ _ => some c
  | _ => none

/-- The test cases that were measured, in order. -/
def driven (evs : List (Event τ)) : List TestCase :=
  evs.filterMap Event.driven?

theorem driven_append (first rest : List (Event τ)) :
    driven (first ++ rest) = driven first ++ driven rest :=
  List.filterMap_append

/-- A row that asks for no measurement. -/
theorem driven_eq_nil {P : Question → Prop} {evs : List (Event τ)} (h : ∀ e ∈ evs, e.Asks P)
    (hP : ∀ c metadata podMetrics, ¬ P (.drive c metadata podMetrics)) : driven evs = [] := by
  refine List.filterMap_eq_nil_iff.mpr fun e he => ?_
  have hask := h e he
  cases e with
  | asked q r time =>
    cases q with
    | drive c metadata podMetrics => exact absurd hask (hP c metadata podMetrics)
    | _ => rfl
  | _ => rfl

/-! ### Turns -/

/-- A question that belongs to the turn of a test case: its measurement, or a call about one of the
deployments of the benchmark. -/
def Question.TakesTurn (ns : String) (q : Question) : Prop :=
  (∃ c metadata podMetrics, q = .drive c metadata podMetrics) ∨
    q.Concerns ns Assets.serverName ∨ q.Concerns ns Assets.clientName

/-- A kind of questions without those that belong to a turn. -/
def NoTurns (P : Question → Prop) : Prop :=
  ∀ ns q, P q → ¬ q.TakesTurn ns

theorem NoTurns.of_forall {P : Question → Prop}
    (hdrive : ∀ c metadata podMetrics, ¬ P (.drive c metadata podMetrics))
    (hread : ∀ ns name, ¬ P (.api (.readDeployment ns name)))
    (hscale : ∀ ns name replicas, ¬ P (.api (.scale ns name replicas))) : NoTurns P := by
  intro ns q hq ht
  rcases ht with ⟨c, metadata, podMetrics, rfl⟩ | (rfl | ⟨_, rfl⟩) | (rfl | ⟨_, rfl⟩)
  · exact hdrive _ _ _ hq
  · exact hread _ _ hq
  · exact hscale _ _ _ hq
  · exact hread _ _ hq
  · exact hscale _ _ _ hq

theorem noTurns_learns : NoTurns Question.Learns :=
  .of_forall (fun _ _ _ h => h) (fun _ _ h => h) (fun _ _ _ h => h)

theorem noTurns_creates (objects : List Manifest) : NoTurns (Question.Creates objects) :=
  .of_forall (fun _ _ _ ⟨_, _, h⟩ => nomatch h) (fun _ _ ⟨_, _, h⟩ => nomatch h)
    (fun _ _ _ ⟨_, _, h⟩ => nomatch h)

theorem noTurns_stores : NoTurns Question.Stores :=
  .of_forall (fun _ _ _ h => h) (fun _ _ h => h) (fun _ _ _ h => h)

theorem noTurns_removes (K : ObjectKind → Prop) : NoTurns (Question.Removes K) :=
  .of_forall (fun _ _ _ h => h) (fun _ _ h => h) (fun _ _ _ h => h)

theorem noTurns_follows : NoTurns Question.Follows := by
  intro ns q hq
  rcases hq with ⟨c, results, rfl⟩ | hq
  · intro ht
    rcases ht with ⟨_, _, _, h⟩ | (h | ⟨_, h⟩) | (h | ⟨_, h⟩)
    all_goals cases h
  · exact noTurns_stores ns q hq

theorem Question.Prepares.not_drive {ns : String} (c : TestCase) (metadata : ClusterMetadata)
    (podMetrics : Bool) : ¬ Question.Prepares ns (.drive c metadata podMetrics) := by
  intro h
  rcases h.shape with ⟨_, h⟩ | ⟨_, h⟩ <;> cases h

/-- A row without turns has no measurement. -/
theorem NoTurns.driven {P : Question → Prop} (hP : NoTurns P) {evs : List (Event τ)}
    (h : ∀ e ∈ evs, e.Asks P) : driven evs = [] :=
  driven_eq_nil h fun c metadata podMetrics hq => hP "" _ hq (.inl ⟨c, metadata, podMetrics, rfl⟩)

/-- Such a row holds no event of a turn. -/
theorem NoTurns.not_split {P : Question → Prop} (hP : NoTurns P) {evs before after : List (Event τ)}
    (h : ∀ e ∈ evs, e.Asks P) {q : Question} {r : q.Reply} {time : τ} {ns : String}
    (hq : q.TakesTurn ns) : evs ≠ before ++ .asked q r time :: after := by
  intro hevs
  have hmem : Event.asked q r time ∈ evs := hevs ▸ List.mem_append_cons_self
  exact hP ns q (h _ hmem) hq

/-! ### Splitting rows -/

/-- A question behind two lines of the log. -/
theorem cons_cons_eq_append_asked {heading line : String} {evs before after : List (Event τ)}
    {q : Question} {r : q.Reply} {time : τ}
    (h : .logged .info heading :: .logged .info line :: evs = before ++ .asked q r time :: after) :
    ∃ between, before = .logged .info heading :: .logged .info line :: between ∧
      evs = between ++ .asked q r time :: after := by
  cases before with
  | nil => cases (List.cons.inj h).1
  | cons e₁ before =>
    obtain ⟨rfl, h₁⟩ := List.cons.inj h
    cases before with
    | nil => cases (List.cons.inj h₁).1
    | cons e₂ before =>
      obtain ⟨rfl, h₂⟩ := List.cons.inj h₁
      exact ⟨before, rfl, h₂⟩

namespace Plan

variable [TimeScale τ] {p : Plan τ} {metadata : ClusterMetadata} {metrics : MetricsServer}
  {s s' : RunState} {evs : List (Event τ)} {r : Except Failure Unit}

/-! ### Attempts in turn -/

/-- A finished attempt measured its test case once; a broken one did so at most once. -/
theorem Attempt.driven_eq (hp : p.team.Observed) {c : TestCase}
    (h : Attempt p metadata metrics c s evs r s') :
    driven evs = [c] ∨ driven evs = [] ∧ ∃ x, r = .error x := by
  obtain ⟨prelude, hprelude, ⟨rfl, hr⟩ | ⟨reply, time, after, s₁, -, rfl, hafter⟩⟩ := h.shape hp
  · exact .inr ⟨driven_eq_nil hprelude Question.Prepares.not_drive, hr⟩
  · refine .inl ?_
    rw [driven_append, driven_eq_nil hprelude Question.Prepares.not_drive]
    show c :: driven after = [c]
    rw [noTurns_follows.driven hafter]

/-- Before an event of its turn an attempt has only been prepared, and it measures no other test
case. -/
theorem Attempt.before_turn (hp : p.team.Observed) {c : TestCase}
    (h : Attempt p metadata metrics c s evs r s') {before after : List (Event τ)} {q : Question}
    {reply : q.Reply} {time : τ} {ns : String} (hevs : evs = before ++ .asked q reply time :: after)
    (hq : q.TakesTurn ns) :
    (∀ e ∈ before, e.Asks (Question.Prepares p.settings.ns)) ∧
      ∀ c' metadata podMetrics, q = .drive c' metadata podMetrics → c' = c := by
  have hother : ∀ {prelude : List (Event τ)},
      (∀ e ∈ prelude, e.Asks (Question.Prepares p.settings.ns)) →
        Event.asked q reply time ∈ prelude →
          ∀ c' metadata podMetrics, q = .drive c' metadata podMetrics → c' = c := by
    intro prelude hprelude hmem c' metadata podMetrics hdrive
    have hprepares : q.Prepares p.settings.ns := hprelude _ hmem
    rw [hdrive] at hprepares
    exact absurd hprepares (Question.Prepares.not_drive _ _ _)
  obtain ⟨prelude, hprelude, ⟨rfl, -⟩ | ⟨_, _, later, s₁, -, rfl, hlater⟩⟩ := h.shape hp
  · have hbefore : ∀ e ∈ before, e ∈ evs := fun e he => hevs ▸ List.mem_append_left _ he
    exact ⟨fun e he => hprelude e (hbefore e he),
      hother hprelude (hevs ▸ List.mem_append_cons_self)⟩
  · rcases append_eq_append_cons hevs with ⟨between, rfl, -⟩ | ⟨between, rfl, hbetween⟩
    · exact ⟨fun e he => hprelude e (List.mem_append_left _ he),
        hother hprelude List.mem_append_cons_self⟩
    · cases between with
      | nil =>
        rw [List.append_nil]
        refine ⟨hprelude, ?_⟩
        intro c' metadata podMetrics hdrive
        subst hdrive
        cases (List.cons.inj hbetween).1
        rfl
      | cons e between =>
        -- What follows the measurement belongs to no turn.
        obtain ⟨rfl, rfl⟩ := List.cons.inj hbetween
        exact absurd rfl (noTurns_follows.not_split hlater hq)

omit [TimeScale τ] in
/-- Two lines of the log ask for nothing. -/
theorem asks_lines {P : Question → Prop} (heading line : String) (h : ∀ e ∈ evs, e.Asks P) :
    ∀ e ∈ .logged .info heading :: .logged .info line :: evs, e.Asks P := by
  intro e he
  rcases List.mem_cons.mp he with rfl | he
  · trivial
  rcases List.mem_cons.mp he with rfl | he
  · trivial
  · exact h e he

theorem Rounds.driven_eq (hp : p.team.Observed) {done : List TestCase}
    (h : Rounds p metadata metrics done s evs s') :
    driven evs = done.map (·.forRun p.run) := by
  induction h with
  | none => rfl
  | @more c rest s s₁ s' evs later heading line first others ih =>
    show driven (evs ++ later) = c.forRun p.run :: rest.map (·.forRun p.run)
    rcases first.driven_eq hp with hevs | ⟨-, x, hx⟩
    · rw [driven_append, hevs, ih]
      rfl
    · cases hx

/-- Before an event of a turn stand the finished rounds of the test cases before it. -/
theorem Rounds.before_turn (hp : p.team.Observed) {cases : List TestCase}
    (h : Rounds p metadata metrics cases s evs s') {before after : List (Event τ)} {q : Question}
    {reply : q.Reply} {time : τ} {ns : String} (hevs : evs = before ++ .asked q reply time :: after)
    (hq : q.TakesTurn ns) :
    ∃ (done : List TestCase) (c : TestCase) (left : List TestCase) (finished rest : List (Event τ))
      (s₁ : RunState), cases = done ++ c :: left ∧ before = finished ++ rest ∧
      Rounds p metadata metrics done s finished s₁ ∧
      (∀ e ∈ rest, e.Asks (Question.Prepares p.settings.ns)) ∧
      ∀ c' metadata podMetrics, q = .drive c' metadata podMetrics → c' = c.forRun p.run := by
  induction h generalizing before with
  | none => exact absurd hevs (by simp)
  | @more c left s s₁ s' evs later heading line first others ih =>
    obtain ⟨between, rfl, hevs₁⟩ := cons_cons_eq_append_asked hevs
    rcases append_eq_append_cons hevs₁ with ⟨between', hround, -⟩ | ⟨between', rfl, hlater⟩
    · obtain ⟨hprepares, hsame⟩ := first.before_turn hp hround hq
      exact ⟨[], c, left, [], _, s, rfl, rfl, .none, asks_lines heading line hprepares, hsame⟩
    · obtain ⟨done, c', left', finished, rest, s₂, rfl, rfl, hdone, hrest, hsame⟩ := ih hlater
      rw [← List.append_assoc evs finished]
      exact ⟨c :: done, c', left', _, rest, s₂, rfl, rfl, .more first hdone, hrest, hsame⟩

/-! ### Starts in turn -/

/-- What comes before an event of the turn of the test case `c`, in a run with the given sink: an
opening, the finished rounds of the test cases before `c`, and what has been done so far to prepare
`c`. -/
inductive InTurn (p : Plan τ) (sink : Option Sink) (c : TestCase) : List (Event τ) → Prop
  | mk {opening finished rest : List (Event τ)} {metadata : ClusterMetadata}
      {metrics : MetricsServer} {done left : List TestCase} {s s' : RunState}
      (hopening : ∀ e ∈ opening, e.Asks (Question.Opens p.settings.ns))
      (hcases : p.cases = done ++ c :: left)
      (hfinished : Rounds p metadata metrics done s finished s')
      (hsink : s.sink = sink)
      (hrest : ∀ e ∈ rest, e.Asks (Question.Prepares p.settings.ns)) :
      InTurn p sink c (opening ++ (finished ++ rest))

/-- Connecting and deploying learn about the cluster and create objects. -/
theorem asks_opening (hp : p.team.Observed) {connecting deploying : List (Event τ)}
    {learnt : Except Failure (ClusterMetadata × MetricsServer)} {s₁ s₂ : RunState}
    (hconnecting : p.connect.Leaves s connecting learnt s₁)
    (hdeploying : p.deployAssets.Leaves s₁ deploying r s₂) :
    ∀ e ∈ connecting ++ deploying, e.Asks (Question.Opens p.settings.ns) := by
  intro e he
  rcases List.mem_append.mp he with he | he
  · exact (asks_connect hp.asks_connect _ _ _ _ hconnecting e he).mono fun _ => .inl
  · exact (asks_deployAssets _ _ _ _ hdeploying e he).mono fun _ => .inr

theorem noTurns_opens (ns : String) : NoTurns (Question.Opens ns) := by
  intro ns' q hq
  rcases hq with hq | hq
  · exact noTurns_learns ns' q hq
  · exact noTurns_creates _ ns' q hq

theorem noTurns_closes : NoTurns fun q => q.Stores ∨ q.Removes fun _ => True := by
  intro ns q hq
  rcases hq with hq | hq
  · exact noTurns_stores ns q hq
  · exact noTurns_removes _ ns q hq

/-- **The test cases that are measured are the first ones**, and all of them unless the start fails
before its sink is closed. -/
theorem Course.driven_prefix (hp : p.team.Observed) (h : Course p s evs r s') :
    driven evs <+: p.cases.map (·.forRun p.run) := by
  cases h with
  | unconnected hconnecting =>
    rw [noTurns_learns.driven (asks_connect hp.asks_connect _ _ _ _ hconnecting)]
    exact List.nil_prefix
  | undeployed hconnecting hdeploying =>
    rw [(noTurns_opens _).driven (asks_opening hp hconnecting hdeploying)]
    exact List.nil_prefix
  | @broken connecting deploying finished broken metadata metrics done left c heading line x _ _ _ _
      hconnecting hdeploying hcases hfinished hbroken =>
    rw [← List.append_assoc, driven_append,
      (noTurns_opens _).driven (asks_opening hp hconnecting hdeploying), driven_append,
      hfinished.driven_eq hp, hcases, List.map_append, List.nil_append]
    refine (List.prefix_append_right_inj _).mpr ?_
    show driven broken <+: c.forRun p.run :: left.map (·.forRun p.run)
    rcases hbroken.driven_eq hp with hone | ⟨hnone, -⟩
    · rw [hone]
      exact (List.cons_prefix_cons).mpr ⟨rfl, List.nil_prefix⟩
    · rw [hnone]
      exact List.nil_prefix
  | closed hconnecting hdeploying hfinished hclosing =>
    rw [← List.append_assoc, driven_append,
      (noTurns_opens _).driven (asks_opening hp hconnecting hdeploying), driven_append,
      hfinished.driven_eq hp, noTurns_closes.driven (asks_wrapUp _ _ _ _ hclosing),
      List.append_nil]
    exact List.prefix_refl _

/-- **Turns do not overlap**: what comes before an event of a turn is in order. -/
theorem Course.in_turn (hp : p.team.Observed) (h : Course p s evs r s')
    {before after : List (Event τ)} {q : Question} {reply : q.Reply} {time : τ} {ns : String}
    (hevs : evs = before ++ .asked q reply time :: after) (hq : q.TakesTurn ns) :
    ∃ c, InTurn p s.sink c before ∧
      ∀ c' metadata podMetrics, q = .drive c' metadata podMetrics → c' = c.forRun p.run := by
  cases h with
  | unconnected hconnecting =>
    exact absurd hevs
      (noTurns_learns.not_split (asks_connect hp.asks_connect _ _ _ _ hconnecting) hq)
  | undeployed hconnecting hdeploying =>
    exact absurd hevs ((noTurns_opens _).not_split (asks_opening hp hconnecting hdeploying) hq)
  | @broken _ _ finished _ metadata metrics done left c _ _ _ _ _ _ _ hconnecting hdeploying hcases
      hfinished hbroken =>
    have hopening := asks_opening hp hconnecting hdeploying
    obtain ⟨session, existed, rfl⟩ := opening_leaves hconnecting hdeploying
    rw [← List.append_assoc] at hevs
    rcases append_eq_append_cons hevs with ⟨_, ho, -⟩ | ⟨before₁, rfl, hevs₁⟩
    · exact absurd ho ((noTurns_opens _).not_split hopening hq)
    rcases append_eq_append_cons hevs₁ with ⟨_, hf, -⟩ | ⟨before₂, rfl, hevs₂⟩
    · obtain ⟨done₁, c', left₁, finished₁, rest, s₄, hdone, rfl, hrounds, hrest, hsame⟩ :=
        hfinished.before_turn hp hf hq
      have hleft : p.cases = done₁ ++ c' :: (left₁ ++ c :: left) := by
        rw [hcases, hdone, List.append_assoc, List.cons_append]
      exact ⟨c', .mk hopening hleft hrounds rfl hrest, hsame⟩
    · obtain ⟨before₃, rfl, hevs₃⟩ := cons_cons_eq_append_asked hevs₂
      obtain ⟨hprepares, hsame⟩ := hbroken.before_turn hp hevs₃ hq
      exact ⟨c, .mk hopening hcases hfinished rfl (asks_lines _ _ hprepares), hsame⟩
  | closed hconnecting hdeploying hfinished hclosing =>
    have hopening := asks_opening hp hconnecting hdeploying
    obtain ⟨session, existed, rfl⟩ := opening_leaves hconnecting hdeploying
    rw [← List.append_assoc] at hevs
    rcases append_eq_append_cons hevs with ⟨_, ho, -⟩ | ⟨before₁, rfl, hevs₁⟩
    · exact absurd ho ((noTurns_opens _).not_split hopening hq)
    rcases append_eq_append_cons hevs₁ with ⟨_, hf, -⟩ | ⟨before₂, -, hevs₂⟩
    · obtain ⟨done₁, c', left₁, finished₁, rest, s₄, hdone, rfl, hrounds, hrest, hsame⟩ :=
        hfinished.before_turn hp hf hq
      exact ⟨c', .mk hopening hdone hrounds rfl hrest, hsame⟩
    · exact absurd hevs₂ (noTurns_closes.not_split (asks_wrapUp _ _ _ _ hclosing) hq)

/-- A start that has not measured every test case failed before its sink was closed. -/
theorem Course.complete (hp : p.team.Observed) (h : Course p s evs r s')
    (hs : s.phase.isOpen = true) :
    driven evs = p.cases.map (·.forRun p.run) ∨
      (∃ x, r = .error x) ∧ s'.phase.isOpen = true := by
  cases h with
  | unconnected hconnecting =>
    obtain ⟨session, -, ⟨-, rfl⟩ | ⟨⟨_, hv⟩, -⟩⟩ := connect_leaves hconnecting
    · exact .inr ⟨⟨_, rfl⟩, hs⟩
    · cases hv
  | undeployed hconnecting hdeploying =>
    obtain ⟨session, -, ⟨⟨_, hx⟩, -⟩ | ⟨-, -, rfl⟩⟩ := connect_leaves hconnecting
    · cases hx
    obtain ⟨x, -, -, rfl⟩ | ⟨existed, hr, -⟩ := deployAssets_leaves hdeploying
    · exact .inr ⟨⟨_, rfl⟩, rfl⟩
    · cases hr
  | broken hconnecting hdeploying hcases hfinished hbroken =>
    refine .inr ⟨⟨_, rfl⟩, ?_⟩
    rw [(hfinished.along.trans hbroken.along).phase_eq]
    rfl
  | closed hconnecting hdeploying hfinished hclosing =>
    left
    rw [← List.append_assoc, driven_append,
      (noTurns_opens _).driven (asks_opening hp hconnecting hdeploying), driven_append,
      hfinished.driven_eq hp, noTurns_closes.driven (asks_wrapUp _ _ _ _ hclosing),
      List.append_nil, List.nil_append]

end Plan
end IngressBench
