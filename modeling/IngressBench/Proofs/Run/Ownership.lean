import IngressBench.Proofs.Run.Changes
import IngressBench.Proofs.Run.Sample
import IngressBench.Proofs.Run.Spares

/-!
Who owns the namespace. A run owns its namespace if the last creation of it that was asked for
succeeded. What the run itself remembers is what its last completed deployment told, and at first
that the namespace was not there; a removal goes by that.

Starts delete only a namespace that the run owns (`start_owned`). A removal on its own deletes one
that the run does not own exactly when nothing has been removed yet, the last deployment was not
completed, and no completed deployment found the namespace there (`uses_owned_iff`). This happens
(`removes_found_namespace`).
-/
namespace IngressBench.Plan

variable {τ : Type} [TimeScale τ] {p : Plan τ} {s s' : RunState} {own : Bool}
  {evs : List (Event τ)} {r : Except Failure Unit}

/-! ### Stages that spare the namespace -/

theorem spares_runCases (hp : p.team.Spares) (metadata : ClusterMetadata) (metrics : MetricsServer)
    (number : Nat) (cases : List TestCase) :
    (p.runCases metadata metrics number cases).Asks Question.Spares :=
  asks_runCases hp.asksOnly (fun _ _ q hq => (passive_of_handles _ _ q hq).spares)
    (fun q hq => (passive_of_stores q hq).spares) metadata metrics number cases

omit [TimeScale τ] in
theorem spares_close : (withSink Sink.close : Stage τ Unit).Asks Question.Spares :=
  asks_withSink (Sink.asks_close.mono fun q hq => (passive_of_stores q hq).spares)

/-! ### What a run remembers -/

/-- What a run remembers about a namespace that it has deployed to is what the last creation of it
was answered. -/
def Told (s : RunState) (own : Bool) : Prop :=
  s.phase.isDeployed = true → s.existed = !own

/-- A removal from this state deletes no namespace that the run does not own: nothing is to be
removed, the namespace is known to have been there, or its last deployment was completed, or the run
owns it. -/
def Harmless (s : RunState) (own : Bool) : Prop :=
  s.session = none ∨ s.torndown = true ∨ s.existed = true ∨ s.phase.isDeployed = true ∨ own = true

/-- A removal of a namespace of the run's own deletes it first, so it has to be owned before. -/
theorem removeAssets_owned
    (h : (removeAssets p.limits.pace p.limits.cleanup false p.settings.ns).Leaves evs r) :
    (DeletesOwned own evs ↔ own = true) ∧ owned own evs = own := by
  obtain ⟨text, reply, time, rest, rfl, hrest⟩ := removeAssets_deletes h
  have hspares : ∀ e ∈ rest, e.Asks Question.Spares := fun e he =>
    (hrest e he).mono spares_of_removes
  constructor
  · rw [deletesOwned_cons, deletesOwned_cons]
    refine ⟨fun howned => howned.2.1 rfl, fun hown => ⟨fun _ => hown, fun _ => hown, ?_⟩⟩
    exact deletesOwned_of_spares hspares
  · show owned own rest = own
    exact owned_of_spares hspares

/-- **A removal deletes only an owned namespace exactly when it is harmless**, and changes neither
what the run owns nor what it remembers. -/
theorem teardown_owned (h : p.teardown.Leaves s evs r s') (hs : Told s own) :
    (DeletesOwned own evs ↔ Harmless s own) ∧ owned own evs = own ∧ Told s' own := by
  have hspared : (∀ e ∈ evs, e.Asks Question.Spares) → Harmless s own →
      (DeletesOwned own evs ↔ Harmless s own) ∧ owned own evs = own := fun h hsafe =>
    ⟨⟨fun _ => hsafe, fun _ => deletesOwned_of_spares h⟩, owned_of_spares h⟩
  obtain ⟨rfl, ⟨htorn, rfl⟩ | ⟨htorn, ⟨hsession, hnone⟩ | ⟨hsession, hremoving⟩⟩⟩ :=
    teardown_leaves h
  · obtain ⟨hiff, howned⟩ := hspared (fun _ h => absurd h List.not_mem_nil) (.inr (.inl htorn))
    exact ⟨hiff, howned, hs⟩
  · obtain ⟨hiff, howned⟩ := hspared (fun e he => (hnone e he).mono fun _ h => h.elim)
      (.inl hsession)
    exact ⟨hiff, howned, hs⟩
  · rcases Bool.eq_false_or_eq_true s.existed with hexisted | hexisted
    · rw [hexisted] at hremoving
      have hkeeps := (removeAssets_keeps p.limits.pace p.limits.cleanup p.settings.ns).mono
        spares_of_removes
      obtain ⟨hiff, howned⟩ := hspared (hkeeps _ _ hremoving) (.inr (.inr (.inl hexisted)))
      exact ⟨hiff, howned, hs⟩
    · rw [hexisted] at hremoving
      have hremoved : (DeletesOwned own evs ↔ own = true) ∧ owned own evs = own :=
        removeAssets_owned hremoving
      obtain ⟨hiff, howned⟩ := hremoved
      refine ⟨hiff.trans ⟨fun hown => ?_, fun hsafe => ?_⟩, howned, hs⟩
      · exact .inr (.inr (.inr (.inr hown)))
      · rcases hsafe with hnone | htorn' | hfound | hdeployed | hown
        · rw [hnone] at hsession
          cases hsession
        · rw [htorn] at htorn'
          cases htorn'
        · rw [hexisted] at hfound
          cases hfound
        · have htold := hs hdeployed
          rw [hexisted] at htold
          simpa using htold.symm
        · exact hown

/-! ### Starts -/

omit [TimeScale τ] in
/-- A deployment that is completed tells whether the run owns the namespace. -/
theorem deploy_owned {x : Except Failure Bool} (h : (deploy p.settings.ns).Leaves evs x) :
    DeletesOwned own evs ∧ ∀ existed, x = .ok existed → existed = !owned own evs := by
  obtain ⟨text, reply, time, rest, rfl, hrest, htells⟩ := deploy_leaves h
  have hspares : ∀ e ∈ rest, e.Asks Question.Spares := fun e he =>
    (hrest e he).mono (spares_of_creates _)
  constructor
  · rw [deletesOwned_cons, deletesOwned_cons]
    exact ⟨fun h => absurd h Bool.false_ne_true, fun h => absurd h Bool.false_ne_true,
      deletesOwned_of_spares hspares⟩
  · intro existed hx
    have htell := htells existed hx
    cases reply with
    | ok _ =>
      show existed = !owned true rest
      rw [owned_of_spares hspares]
      exact htell
    | error fault =>
      show existed = !owned false rest
      rw [owned_of_spares hspares]
      exact htell.1

/-- A row of a run that remembers rightly whether it owns the namespace: only an owned one is
deleted, and both stay as they are. -/
structure Knowing (own : Bool) (evs : List (Event τ)) (s' : RunState) : Prop where
  deletes : DeletesOwned own evs
  owned_eq : owned own evs = own
  existed_eq : s'.existed = !own

omit [TimeScale τ] in
theorem Knowing.append {first rest : List (Event τ)} {s₁ : RunState} (h : Knowing own first s₁)
    (h' : Knowing own rest s') : Knowing own (first ++ rest) s' where
  deletes := deletesOwned_append.mpr ⟨h.deletes, h.owned_eq.symm ▸ h'.deletes⟩
  owned_eq := by rw [owned_append, h.owned_eq, h'.owned_eq]
  existed_eq := h'.existed_eq

omit [TimeScale τ] in
theorem knowing_spared (h : ∀ e ∈ evs, e.Asks Question.Spares) (hs : s.existed = !own)
    (halong : Along s s') : Knowing own evs s' := by
  refine ⟨deletesOwned_of_spares h, owned_of_spares h, ?_⟩
  obtain ⟨_, _, _, rfl⟩ := halong
  exact hs

theorem teardown_knowing (h : p.teardown.Leaves s evs r s') (hs : s.existed = !own) :
    Knowing own evs s' := by
  have hsafe : Harmless s own := by
    cases own with
    | true => exact .inr (.inr (.inr (.inr rfl)))
    | false => exact .inr (.inr (.inl hs))
  obtain ⟨hiff, howned, -⟩ := teardown_owned h fun _ => hs
  refine ⟨hiff.mpr hsafe, howned, ?_⟩
  rw [(teardown_leaves h).1]
  exact hs

theorem Closing.knowing (h : Closing p s evs r s') (hs : s.existed = !own) :
    Knowing own evs s' := by
  have hstore : ∀ {storing : List (Event τ)} {r : Except Failure Unit} {s₁ : RunState},
      (withSink Sink.close).Leaves s storing r s₁ → Knowing own storing s₁ := fun h =>
    knowing_spared (spares_close _ _ _ _ h) hs
      (keeps_withSink _ _ _ _ _ h)
  cases h with
  | unstored hstoring => exact hstore hstoring
  | kept _ hstoring =>
    obtain ⟨hdeletes, howned, hexisted⟩ := hstore hstoring
    exact ⟨hdeletes, howned, hexisted⟩
  | unremoved _ hstoring hremoving =>
    have hstored := hstore hstoring
    exact hstored.append (teardown_knowing hremoving hstored.existed_eq)
  | removed _ hstoring hremoving =>
    have hstored := hstore hstoring
    obtain ⟨hdeletes, howned, hexisted⟩ :=
      hstored.append (teardown_knowing hremoving hstored.existed_eq)
    exact ⟨hdeletes, howned, hexisted⟩

/-- **A start deletes only a namespace that the run owns**, and remembers what it deployed to. -/
theorem start_owned (hp : p.team.Spares) (h : p.start.Leaves s evs r s') (hs : Told s own) :
    DeletesOwned own evs ∧ Told s' (owned own evs) := by
  have hconnect := asks_connect_of (p := p)
    (fun q hq => (passive_of_learns q hq).spares) hp.connect
  rcases Keeping.leaves_bind.mp h with
    ⟨x, hx, rfl⟩ | ⟨⟨metadata, metrics⟩, s₁, connecting, rest, hconnecting, h₁, rfl⟩
  · have hspares := hconnect _ _ _ _ hx
    refine ⟨deletesOwned_of_spares hspares, ?_⟩
    obtain ⟨session, -, ⟨-, rfl⟩ | ⟨⟨_, hv⟩, -⟩⟩ := connect_leaves hx
    · rw [owned_of_spares hspares]
      exact hs
    · cases hv
  have hspares := hconnect _ _ _ _ hconnecting
  rw [deletesOwned_append, owned_append, owned_of_spares hspares]
  obtain ⟨session, -, ⟨⟨_, hv⟩, -⟩ | ⟨-, -, rfl⟩⟩ := connect_leaves hconnecting
  · cases hv
  suffices hrest : DeletesOwned own rest ∧ Told s' (owned own rest) from
    ⟨⟨deletesOwned_of_spares hspares, hrest.1⟩, hrest.2⟩
  rcases Keeping.leaves_bind.mp h₁ with ⟨x, hx, rfl⟩ |
    ⟨_, s₂, deploying, later, hdeploying, h₂, rfl⟩
  · obtain ⟨_, -, hdeploy, rfl⟩ | ⟨_, hv, -⟩ := deployAssets_leaves hx
    · exact ⟨(deploy_owned hdeploy).1, fun h => absurd h Bool.false_ne_true⟩
    · cases hv
  obtain ⟨_, hv, -⟩ | ⟨existed, -, hdeploy, rfl⟩ := deployAssets_leaves hdeploying
  · cases hv
  have hdeployed : DeletesOwned own deploying ∧
      ∀ b, Except.ok existed = .ok b → b = !owned own deploying := deploy_owned hdeploy
  obtain ⟨hdeletes, htells⟩ := hdeployed
  -- From here on the run remembers rightly whether it owns the namespace.
  have hlater : Knowing (owned own deploying) later s' := by
    have h₃ := Keeping.leaves_modify_bind.mp h₂
    have hcases : ∀ {finished : List (Event τ)} {r : Except Failure Unit} {s₃ : RunState},
        (p.runCases metadata metrics 1 p.cases).Leaves
          { s with session, existed, phase := .running }
          finished r s₃ → Knowing (owned own deploying) finished s₃ := fun h =>
      knowing_spared (spares_runCases hp metadata metrics _ _ _ _ _ _ h) (htells existed rfl)
        (runCases_along h)
    rcases Keeping.leaves_bind.mp h₃ with ⟨x, hx, rfl⟩ | ⟨_, s₃, finished, closing, hdone, h₄, rfl⟩
    · exact hcases hx
    · exact (hcases hdone).append ((wrapUp_leaves h₄).knowing (hcases hdone).existed_eq)
  rw [deletesOwned_append, owned_append, hlater.owned_eq]
  exact ⟨⟨hdeletes, hlater.deletes⟩, fun _ => hlater.existed_eq⟩

/-! ### Rows of calls -/

/-- What a run can be told to do. -/
inductive Use where
  | start
  | teardown
deriving DecidableEq

/-- One call of a run. -/
def use (p : Plan τ) : Use → Stage τ Unit
  | .start => p.start
  | .teardown => p.teardown

/-- Calls one after the other, whether they succeed or fail; the run keeps its state between them.
-/
def uses (p : Plan τ) : List Use → RunState → Program τ RunState
  | [], s => return s
  | u :: rest, s => do
    let ended ← (p.use u).perform s
    p.uses rest ended.2

theorem use_owned (hp : p.team.Spares) {u : Use} (h : (p.use u).Leaves s evs r s')
    (hs : Told s own) :
    (DeletesOwned own evs ↔ (u = .teardown → Harmless s own)) ∧ Told s' (owned own evs) := by
  cases u with
  | start =>
    obtain ⟨hdeletes, htold⟩ := start_owned hp h hs
    exact ⟨⟨fun _ hu => absurd hu (by decide), fun _ => hdeletes⟩, htold⟩
  | teardown =>
    obtain ⟨hiff, howned, htold⟩ := teardown_owned h hs
    refine ⟨hiff.trans ⟨fun hsafe _ => hsafe, fun hsafe => hsafe rfl⟩, ?_⟩
    rw [howned]
    exact htold

variable {σ : Type}

/-- The events of a history, the first one first. -/
def rowOf (h : History τ σ) : List (Event τ) :=
  h.events.reverse

/-- A call extends the row of a run. -/
theorem rowOf_use (w : World τ σ) (u : Use) (s : RunState) (h : History τ σ) :
    ∃ evs, (p.use u).Leaves s evs (w.run ((p.use u).perform s) h).1.1
        (w.run ((p.use u).perform s) h).1.2 ∧
      rowOf (w.run ((p.use u).perform s) h).2 = rowOf h ++ evs := by
  obtain ⟨evs, hleaves, hevents⟩ := w.run_leaves ((p.use u).perform s) h
  refine ⟨evs, hleaves, ?_⟩
  rw [rowOf, hevents, List.reverse_append, List.reverse_reverse]
  rfl

theorem run_uses_cons (w : World τ σ) (u : Use) (rest : List Use) (s : RunState)
    (h : History τ σ) :
    w.run (p.uses (u :: rest) s) h =
      w.run (p.uses rest (w.run ((p.use u).perform s) h).1.2)
        (w.run ((p.use u).perform s) h).2 :=
  w.run_bind _ _ h

/-- Whatever a run is told to do, it remembers what it deployed to. -/
theorem uses_told (hp : p.team.Spares) (w : World τ σ) (us : List Use) (s : RunState)
    (h : History τ σ) (hs : Told s (owned false (rowOf h))) :
    Told (w.run (p.uses us s) h).1 (owned false (rowOf (w.run (p.uses us s) h).2)) := by
  induction us generalizing s h with
  | nil => exact hs
  | cons u rest ih =>
    obtain ⟨evs, hleaves, hrow⟩ := rowOf_use (p := p) w u s h
    rw [run_uses_cons]
    refine ih _ _ ?_
    rw [hrow, owned_append]
    exact (use_owned hp hleaves hs).2

/-- Rows only grow. -/
theorem rowOf_uses (w : World τ σ) (us : List Use) (s : RunState) (h : History τ σ) :
    ∃ evs, rowOf (w.run (p.uses us s) h).2 = rowOf h ++ evs := by
  obtain ⟨evs, -, hevents⟩ := w.run_leaves (p.uses us s) h
  exact ⟨evs, by rw [rowOf, hevents, List.reverse_append, List.reverse_reverse]; rfl⟩

/-- Only owned namespaces are deleted exactly when every removal of its own is harmless. -/
theorem uses_deletes (hp : p.team.Spares) (w : World τ σ) (us : List Use) (s : RunState)
    (h : History τ σ) (hs : Told s (owned false (rowOf h)))
    (hown : DeletesOwned false (rowOf h)) :
    DeletesOwned false (rowOf (w.run (p.uses us s) h).2) ↔
      ∀ before after, us = before ++ .teardown :: after →
        Harmless (w.run (p.uses before s) h).1
          (owned false (rowOf (w.run (p.uses before s) h).2)) := by
  induction us generalizing s h with
  | nil => exact ⟨fun _ before after hsplit => absurd hsplit (by simp), fun _ => hown⟩
  | cons u rest ih =>
    obtain ⟨evs, hleaves, hrow⟩ := rowOf_use (p := p) w u s h
    obtain ⟨hiff, htold⟩ := use_owned hp hleaves hs
    rw [← owned_append, ← hrow] at htold
    have hfirst : DeletesOwned false (rowOf (w.run ((p.use u).perform s) h).2) ↔
        (u = .teardown → Harmless s (owned false (rowOf h))) := by
      rw [hrow, deletesOwned_append, and_iff_right hown]
      exact hiff
    constructor
    · intro hall before after hsplit
      obtain ⟨more, hmore⟩ := rowOf_uses (p := p) w rest (w.run ((p.use u).perform s) h).1.2
        (w.run ((p.use u).perform s) h).2
      rw [run_uses_cons] at hall
      have hearly := hall
      rw [hmore, deletesOwned_append] at hearly
      cases before with
      | nil =>
        obtain ⟨rfl, -⟩ := List.cons.inj hsplit
        exact hfirst.mp hearly.1 rfl
      | cons u' before =>
        obtain ⟨rfl, hsplit'⟩ := List.cons.inj hsplit
        rw [run_uses_cons]
        exact (ih _ _ htold hearly.1).mp hall before after hsplit'
    · intro hsafe
      have hearly := hfirst.mpr fun hu => hsafe [] rest (by rw [hu]; rfl)
      rw [run_uses_cons]
      refine (ih _ _ htold hearly).mpr fun before after hsplit => ?_
      have hlater := hsafe (u :: before) after (by rw [hsplit]; rfl)
      rwa [run_uses_cons] at hlater

/-- **What a run deletes is its own, exactly when its removals are harmless.** Whatever the
surroundings answer, after any row of calls a run remembers rightly what its last completed
deployment found; and in such a row a namespace is deleted without being owned only by a removal on
its own, when neither that deployment found the namespace there nor was the last deployment
completed. -/
theorem uses_owned_iff (p : Plan τ) (hp : p.team.Spares) (w : World τ σ) (now : τ) (world : σ)
    (session : Option Session) (sink : Option Sink) (us : List Use) :
    let run (us : List Use) := w.trace now world (p.uses us (.fresh session sink))
    Told (run us).1 (owned false (run us).2) ∧
      (DeletesOwned false (run us).2 ↔ ∀ before after, us = before ++ .teardown :: after →
        Harmless (run before).1 (owned false (run before).2)) := by
  intro run
  have hs : Told (.fresh session sink) false := fun h => absurd h Bool.false_ne_true
  exact ⟨uses_told hp w us _ _ hs, uses_deletes hp w us _ _ hs (deletesOwned_nil false)⟩

/-- An ideal cluster: the start has removed everything already, so a removal after it is harmless.
-/
theorem uses_owned_ideal :
    let p := Sample.plan [{ serverReplicas := 2 }]
    let trace := (Sample.ideal.trace 0 {} (p.uses [.start, .teardown] (.fresh none none))).2
    p.team.Spares ∧ DeletesOwned false trace ∧ (trace.filter Event.unmakes).length = 1 := by
  intro p trace
  have hiff := (uses_owned_iff p Sample.team_observed.spares Sample.ideal 0 {} none none
    [.start, .teardown]).2
  refine ⟨Sample.team_observed.spares, hiff.mpr fun before after hsplit => ?_, by decide +kernel⟩
  cases before with
  | nil => cases (List.cons.inj hsplit).1
  | cons u before =>
    obtain ⟨rfl, hrest⟩ := List.cons.inj hsplit
    cases before with
    | nil => exact .inr (.inl (by decide +kernel))
    | cons u' before => exact absurd (List.cons.inj hrest).2 (by simp)

/-! ### A namespace that the run does not own -/

omit [TimeScale τ] in
/-- A row that deletes a namespace at a place where the run does not own it. -/
theorem not_deletesOwned {k : Nat} (hk : (evs[k]?.map Event.unmakes) = some true)
    (hown : owned own (evs.take k) = false) : ¬ DeletesOwned own evs := by
  intro h
  obtain ⟨e, he, hunmakes⟩ := Option.map_eq_some_iff.mp hk
  obtain ⟨hlt, hget⟩ := List.getElem?_eq_some_iff.mp he
  have hsplit : evs = evs.take k ++ e :: evs.drop (k + 1) := by
    rw [← hget, ← List.drop_eq_getElem_cons hlt, List.take_append_drop]
  have howned := h _ e _ hsplit hunmakes
  rw [hown] at howned
  cases howned

/-- A cluster in which the namespace is there already, and no deployment can be created. -/
def occupied : World Nat Unit :=
  Sample.world (fun _ call => match call with
    | .create ⟨⟨.ns, _, _⟩, _⟩ => .error (.rejected ApiFault.alreadyExists none)
    | .create ⟨⟨.deployment, _, _⟩, _⟩ => .error (.rejected 500 none)
    | call => Ideal.answer {} call) fun _ _ => ()

/-- **A removal can delete a namespace that was there before the run**: after a deployment that
found it there and then failed, and also before any deployment. -/
theorem removes_found_namespace :
    let p := Sample.plan []
    ¬ DeletesOwned false
        (occupied.trace 0 () (p.uses [.start, .teardown] (.fresh (some { keys := [] }) none))).2 ∧
      ¬ DeletesOwned false
        (Sample.ideal.trace 0 {} (p.uses [.teardown] (.fresh (some { keys := [] }) none))).2 := by
  intro p
  constructor
  · exact not_deletesOwned (k := 14) (by decide +kernel) (by decide +kernel)
  · exact not_deletesOwned (k := 1) (by decide +kernel) (by decide +kernel)

end IngressBench.Plan
