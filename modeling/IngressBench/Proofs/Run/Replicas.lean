import IngressBench.Proofs.Run.Sample
import IngressBench.Proofs.Run.Turns

/-!
The replicas behind a measurement. Whenever a test case is measured, both deployments are settled
(`start_settles`): the last reading of each either shows as many ready replicas as the test case
asks for, or all its counts agree after the cluster accepted the count that the test case asks for.

The last reading need not show the count that was asked for in all four of its counts: a deployment
with enough ready replicas is taken as it is, and after a change the cluster may still show the
deployment as it was before (`counts_not_shown`).
-/
namespace IngressBench

variable {τ : Type}

/-! ### Rows before measurements -/

/-- Before every measurement in a row the part of the row up to it satisfies `Q`. -/
def AtDrives (Q : TestCase → List (Event τ) → Prop) (evs : List (Event τ)) : Prop :=
  ∀ (before after : List (Event τ)) (c : TestCase) (metadata : ClusterMetadata)
    (podMetrics : Bool) (reply : Except Failure (List Result)) (time : τ),
    evs = before ++ .asked (.drive c metadata podMetrics) reply time :: after → Q c before

variable {Q : TestCase → List (Event τ) → Prop} {first rest evs : List (Event τ)}

theorem AtDrives.of_asks {P : Question → Prop} (h : ∀ e ∈ evs, e.Asks P)
    (hP : ∀ c metadata podMetrics, ¬ P (.drive c metadata podMetrics)) : AtDrives Q evs := by
  intro before after c metadata podMetrics reply time hevs
  have hmem : .asked (.drive c metadata podMetrics) reply time ∈ evs :=
    hevs ▸ List.mem_append_cons_self
  exact absurd (h _ hmem) (hP c metadata podMetrics)

theorem AtDrives.nil (Q : TestCase → List (Event τ) → Prop) : AtDrives Q [] :=
  fun _ _ _ _ _ _ _ h => absurd h (by simp)

/-- Rows one after the other, when what comes before does not matter. -/
theorem AtDrives.append (hQ : ∀ c first evs, Q c evs → Q c (first ++ evs))
    (hfirst : AtDrives Q first) (hrest : AtDrives Q rest) : AtDrives Q (first ++ rest) := by
  intro before after c metadata podMetrics reply time hevs
  rcases append_eq_append_cons hevs with ⟨between, h, -⟩ | ⟨between, rfl, h⟩
  · exact hfirst _ _ _ _ _ _ _ h
  · exact hQ _ _ _ (hrest _ _ _ _ _ _ _ h)

/-! ### Preparing settles -/

/-- Both deployments of the benchmark are settled at the counts of a test case. -/
def BothSettled (ns : String) (c : TestCase) (evs : List (Event τ)) : Prop :=
  Settled ns Assets.serverName c.serverReplicas evs ∧
    Settled ns Assets.clientName c.concurrency evs

/-- What came before does not matter. -/
theorem BothSettled.after {ns : String} (c : TestCase) (first evs : List (Event τ))
    (h : BothSettled ns c evs) : BothSettled ns c (first ++ evs) :=
  ⟨h.1.after first, h.2.after first⟩

/-- Tuning concerns no deployment but that of the routers. -/
theorem Question.Tunes.not_concerns {q : Question} (h : q.Tunes) {ns name : String}
    (hname : name ≠ Tuning.routerDeployment) : ¬ q.Concerns ns name := by
  intro hc
  rcases h with ⟨_, rfl⟩ | ⟨_, rfl⟩ | rfl | ⟨_, rfl⟩
  · rcases hc with hc | ⟨_, hc⟩ <;> cases hc
  · rcases hc with hc | ⟨_, hc⟩ <;> cases hc
  · rcases hc with hc | ⟨_, hc⟩
    · cases hc
      exact hname rfl
    · cases hc
  · rcases hc with hc | ⟨_, hc⟩ <;> cases hc

namespace Plan

variable [TimeScale τ] {p : Plan τ} {metadata : ClusterMetadata} {metrics : MetricsServer}
  {s s' : RunState} {r : Except Failure Unit}

theorem Prepared.settled (hp : p.team.Observed) {c : TestCase} (h : Prepared p c s evs s') :
    BothSettled p.settings.ns c evs := by
  obtain ⟨hscaling, htuning⟩ := h
  have htunes := asks_tune hp.asks_tune c _ _ _ _ htuning
  obtain ⟨hserver, hclient⟩ := reconcile_settles hscaling
  refine ⟨hserver.before fun e he => ?_, hclient.before fun e he => ?_⟩
  · exact (htunes e he).mono fun _ hq => hq.not_concerns (by decide)
  · exact (htunes e he).mono fun _ hq => hq.not_concerns (by decide)

theorem Attempt.atDrives (hp : p.team.Observed) {c : TestCase}
    (h : Attempt p metadata metrics c s evs r s') : AtDrives (BothSettled p.settings.ns) evs := by
  obtain ⟨prelude, hprelude, ⟨rfl, -⟩ | ⟨_, _, later, s₁, hprepared, rfl, hlater⟩⟩ := h.shape hp
  · exact AtDrives.of_asks hprelude Question.Prepares.not_drive
  · intro before after c' metadata' podMetrics reply time hevs
    rcases append_eq_append_cons hevs with ⟨between, rfl, -⟩ | ⟨between, rfl, hbetween⟩
    · exact absurd (hprelude _ List.mem_append_cons_self) (Question.Prepares.not_drive _ _ _)
    · cases between with
      | nil =>
        rw [List.append_nil]
        cases (List.cons.inj hbetween).1
        exact hprepared.settled hp
      | cons e between =>
        obtain ⟨rfl, rfl⟩ := List.cons.inj hbetween
        exact absurd (.inl ⟨_, _, _, rfl⟩)
          (noTurns_follows "" _ (hlater _ List.mem_append_cons_self))

omit [TimeScale τ] in
/-- Two lines of the log hold no measurement. -/
theorem atDrives_lines (Q : TestCase → List (Event τ) → Prop) (heading line : String) :
    AtDrives Q [(.logged .info heading : Event τ), .logged .info line] := by
  intro before after c metadata podMetrics reply time hevs
  obtain ⟨between, -, hnone⟩ := cons_cons_eq_append_asked hevs
  exact absurd hnone (by simp)

theorem Rounds.atDrives (hp : p.team.Observed) {done : List TestCase}
    (h : Rounds p metadata metrics done s evs s') : AtDrives (BothSettled p.settings.ns) evs := by
  induction h with
  | none => exact AtDrives.nil _
  | @more c left s s₁ s' evs later heading line first others ih =>
    exact (atDrives_lines _ heading line).append BothSettled.after
      ((first.atDrives hp).append BothSettled.after ih)

theorem Course.atDrives (hp : p.team.Observed) (h : Course p s evs r s') :
    AtDrives (BothSettled p.settings.ns) evs := by
  have hnone : ∀ {P : Question → Prop} {evs : List (Event τ)}, NoTurns P → (∀ e ∈ evs, e.Asks P) →
      AtDrives (BothSettled p.settings.ns) evs := fun hP h =>
    AtDrives.of_asks h fun _ _ _ hq => hP "" _ hq (.inl ⟨_, _, _, rfl⟩)
  cases h with
  | unconnected hconnecting =>
    exact hnone noTurns_learns (asks_connect hp.asks_connect _ _ _ _ hconnecting)
  | undeployed hconnecting hdeploying =>
    exact hnone (noTurns_opens _) (asks_opening hp hconnecting hdeploying)
  | @broken _ _ _ broken _ _ _ _ _ heading line _ _ _ _ _ hconnecting hdeploying _ hfinished
      hbroken =>
    have hlast := (atDrives_lines _ heading line).append BothSettled.after (hbroken.atDrives hp)
    rw [← List.append_assoc]
    have hopen := hnone (noTurns_opens _) (asks_opening hp hconnecting hdeploying)
    exact hopen.append BothSettled.after ((hfinished.atDrives hp).append BothSettled.after hlast)
  | closed hconnecting hdeploying hfinished hclosing =>
    have hlast := hnone noTurns_closes (asks_wrapUp _ _ _ _ hclosing)
    rw [← List.append_assoc]
    have hopen := hnone (noTurns_opens _) (asks_opening hp hconnecting hdeploying)
    exact hopen.append BothSettled.after ((hfinished.atDrives hp).append BothSettled.after hlast)

/-- **Both deployments are settled behind every measurement** of a start, whatever the surroundings
of an observed team answer. -/
theorem start_settles {σ : Type} (p : Plan τ) (hp : p.team.Observed) (w : World τ σ) (now : τ)
    (world : σ) (s : RunState) :
    AtDrives (BothSettled p.settings.ns) (w.trace now world (p.start.perform s)).2 :=
  (start_course (w.trace_leaves now world (p.start.perform s))).atDrives hp

/-- On an ideal cluster two measurements are taken, each with settled deployments. -/
theorem start_settles_ideal :
    let p := Sample.plan [{ warmup := true }, { serverReplicas := 3, concurrency := 2 }]
    let trace := (Sample.ideal.trace 0 {} (p.start.perform (.fresh none none))).2
    p.team.Observed ∧ AtDrives (BothSettled p.settings.ns) trace ∧ (driven trace).length = 2 :=
  ⟨Sample.team_observed, start_settles _ Sample.team_observed Sample.ideal 0 {} (.fresh none none),
    by decide +kernel⟩

end Plan

/-! ### What a reading need not show -/

/-- The deployment that an event shows. -/
def Event.reading? (ns name : String) : Event τ → Option Deployment
  | .asked (.api (.readDeployment n m)) (.ok d) _ => if n = ns ∧ m = name then some d else none
  | _ => none

/-- The last reading of a deployment. -/
def lastReading (ns name : String) (evs : List (Event τ)) : Option Deployment :=
  evs.reverse.findSome? (Event.reading? ns name)

/-- The last reading of a deployment shows the count in all its counts; an absent one is zero. -/
def ShowsCount (ns name : String) (n : Int) (evs : List (Event τ)) : Prop :=
  ∃ d spec status, lastReading ns name evs = some d ∧ d.spec = some spec ∧ d.status = some status ∧
    countOf spec.replicas = n ∧ countOf status.replicas = n ∧ countOf status.ready = n ∧
    countOf status.available = n

theorem Event.driven?_eq_some {e : Event τ} {c : TestCase} (h : e.driven? = some c) :
    ∃ metadata podMetrics reply time, e = .asked (.drive c metadata podMetrics) reply time := by
  cases e with
  | asked q r time =>
    cases q with
    | drive c' metadata podMetrics =>
      cases h
      exact ⟨metadata, podMetrics, r, time, rfl⟩
    | _ => cases h
  | _ => cases h

/-- What holds before every measurement holds before the one at a given place. -/
theorem AtDrives.at_place (h : AtDrives Q evs) {k n : Nat}
    (hk : (evs[k]?.bind Event.driven?).map TestCase.serverReplicas = some n) :
    ∃ c, c.serverReplicas = n ∧ Q c (evs.take k) := by
  obtain ⟨c, hc, hn⟩ := Option.map_eq_some_iff.mp hk
  obtain ⟨e, he, hdriven⟩ := Option.bind_eq_some_iff.mp hc
  obtain ⟨metadata, podMetrics, reply, time, rfl⟩ := Event.driven?_eq_some hdriven
  obtain ⟨hlt, hget⟩ := List.getElem?_eq_some_iff.mp he
  refine ⟨c, hn, h (evs.take k) (evs.drop (k + 1)) c metadata podMetrics reply time ?_⟩
  rw [← hget, ← List.drop_eq_getElem_cons hlt, List.take_append_drop]

/-- Before every measurement the last readings of both deployments show the counts of the test
case. -/
def ShowsCounts (ns : String) : List (Event τ) → Prop :=
  AtDrives fun c before => ShowsCount ns Assets.serverName c.serverReplicas before ∧
    ShowsCount ns Assets.clientName c.concurrency before

/-- A last reading of servers that wants another count than the test case refutes this. -/
theorem not_showsCounts {ns : String} {k n : Nat} {d : Deployment}
    (hk : (evs[k]?.bind Event.driven?).map TestCase.serverReplicas = some n)
    (hread : lastReading ns Assets.serverName (evs.take k) = some d)
    (hwanted : d.spec.all fun spec => countOf spec.replicas != n) : ¬ ShowsCounts ns evs := by
  intro h
  obtain ⟨c, rfl, ⟨d', spec, status, hd', hspec, -, hcount, -⟩, -⟩ := h.at_place hk
  rw [hread] at hd'
  cases hd'
  rw [hspec] at hwanted
  simp [hcount] at hwanted

/-- A deployment on its way to five replicas, three of which are ready. -/
def rising : Deployment where
  spec := some { replicas := some 5 }
  status := some { replicas := some 5, ready := some 3, available := some 3 }

/-- A deployment with five replicas, all of them ready. -/
def full : Deployment where
  spec := some { replicas := some 5 }
  status := some { replicas := some 5, ready := some 5, available := some 5 }

/-- A cluster that always shows the same deployment. -/
def frozen (d : Deployment) : World Nat Unit :=
  Sample.world (fun _ call => match call with
    | .readDeployment .. => .ok d
    | call => Ideal.answer {} call) fun _ _ => ()

/-- **The last readings need not show the counts that were asked for.** Three ready replicas are
enough for a test case that asks for three, although the deployment is on its way to five; and five
ready replicas are enough once three have been asked for, while the cluster still shows the
deployment as it was. -/
theorem counts_not_shown :
    let p := Sample.plan [{ serverReplicas := 3, concurrency := 3 }]
    ¬ ShowsCounts p.settings.ns
        ((frozen rising).trace 0 () (p.start.perform (.fresh none none))).2 ∧
      ¬ ShowsCounts p.settings.ns
        ((frozen full).trace 0 () (p.start.perform (.fresh none none))).2 := by
  intro p
  constructor
  · exact not_showsCounts (k := 26) (n := 3) (d := rising) (by decide +kernel) (by decide +kernel)
      (by decide)
  · exact not_showsCounts (k := 34) (n := 3) (d := full) (by decide +kernel) (by decide +kernel)
      (by decide)

end IngressBench
