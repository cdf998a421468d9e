import IngressBench.Proofs.Indexing.Sink
import IngressBench.Proofs.Program.Beside
import IngressBench.Run.Course

/-!
Runs with a register. A run that enters the phases that it reaches, the calls of its helpers and the
steps of its sink into a register, each with what it ended with, does what the run without a register
does (`startWith_shadows`).

Which entries are kept, and as what, is left to the register. Nothing but this tells two registers
apart: the course of the run is one for all of them, and a stage of which nothing is kept has no part
in the register (`entered_beside`). What is kept of a whole run is put together from what is kept of
its stages (`enters_bind`).
-/
namespace IngressBench

/-- When the sink of a run stores its documents. -/
def RunState.cadence? (s : RunState) : Option Cadence :=
  s.sink.map Sink.cadence

/-- What a run can enter into a register: a phase that is reached, or a call of a helper or a step of
its sink with what it ended with. -/
inductive Entry where
  | reached (phase : Phase)
  | tuned (profile : String) (outcome : Except Failure Unit)
  | measured (case : TestCase) (outcome : Except Failure (List Result))
  | compared (case : TestCase) (results : List Result) (outcome : Except Failure Bool)
  | handed (sink : Cadence) (results : List Result) (outcome : Except Failure Unit)
  | closed (sink : Cadence) (outcome : Except Failure Unit)

namespace Plan

variable {τ α β κ : Type} [TimeScale τ]

/-- A stage that keeps a register: what it kept of the entries so far, in order. -/
abbrev Recorded (κ τ α : Type) := Keeping (RunState × List κ) τ α

/-! ### The run with its register -/

section
variable (keep : Entry → Option κ)

/-- A stage for which there is an entry when it ends, unless there is nothing to tell. -/
def entered (entry : RunState → Except Failure α → Option Entry) (m : Stage τ α) :
    Recorded κ τ α :=
  Keeping.noting (fun s r kept => kept ++ ((entry s r).bind keep).toList) m

/-- A helper does its work, and the call is entered however it ends. -/
def calling (entry : Except Failure α → Entry) (work : Action τ α) : Recorded κ τ α :=
  entered keep (fun _ r => some (entry r)) (Keeping.lift work)

def reachWith (phase : Phase) : Recorded κ τ Unit :=
  entered keep (fun _ _ => some (.reached phase)) (reach phase)

/-- A step of the sink is entered if there is a sink. -/
def withSinkWith (entry : Cadence → Except Failure Unit → Entry) (step : Keeping Sink τ Unit) :
    Recorded κ τ Unit :=
  entered keep (fun s r => s.cadence?.map fun cadence => entry cadence r) (withSink step)

def connectWith (p : Plan τ) : Recorded κ τ (ClusterMetadata × MetricsServer) := do
  let session ← Keeping.beside p.session
  let metadata ← Keeping.beside (Keeping.lift Discovery.metadata)
  let metrics ← Keeping.beside (Keeping.lift (Discovery.metricsServer session p.settings))
  let metadata ← Keeping.beside (Keeping.lift (withBalancer metadata))
  reachWith keep .connected
  return (metadata, metrics)

def deployWith (p : Plan τ) : Recorded κ τ Unit := do
  let existed ← Keeping.beside (Keeping.lift (deploy p.settings.ns))
  Keeping.beside (modify fun s => { s with existed })
  reachWith keep .deployed

def tuneWith (p : Plan τ) (c : TestCase) : Recorded κ τ Unit := do
  if !c.tuning.isEmpty && c.tuning != (← Keeping.beside get).tuning then
    calling keep (.tuned c.tuning) (p.team.tune c.tuning)
    Keeping.beside (modify fun s => { s with tuning := c.tuning })

def compareWith (p : Plan τ) (c : TestCase) (results : List Result) : Recorded κ τ Unit := do
  if let some comparator := p.team.compare then
    if !(← calling keep (.compared c results) (comparator c results)) then
      Keeping.beside (Keeping.lift
        (Action.log .error s!"Benchmark comparison failed for test case with uuid {c.uuid}"))
      Keeping.beside (modify fun s => { s with passed := false })

def runCaseWith (p : Plan τ) (metadata : ClusterMetadata) (metrics : MetricsServer)
    (c : TestCase) : Recorded κ τ Unit := do
  Keeping.beside (Keeping.lift (reconcile p.limits.pace p.limits.readiness p.settings.ns
    c.serverReplicas c.concurrency))
  p.tuneWith keep c
  let results ← calling keep (.measured c)
    (p.team.drive c metadata (some metrics) p.settings.podMetrics)
  if c.warmup then
    Keeping.beside (Keeping.lift
      (Action.log .info "Warmup test case, results are not indexed"))
  else
    p.compareWith keep c results
    withSinkWith keep (.handed · results) (Sink.accept (results.map some))

def runCasesWith (p : Plan τ) (metadata : ClusterMetadata) (metrics : MetricsServer) :
    Nat → List TestCase → Recorded κ τ Unit
  | _, [] => return
  | number, c :: rest => do
    let c := c.forRun p.run
    Keeping.beside (Keeping.lift (Action.log .info s!"Running test {number}/{p.cases.length}"))
    Keeping.beside (Keeping.lift (Action.log .info (caseLine c)))
    p.runCaseWith keep metadata metrics c
    p.runCasesWith metadata metrics (number + 1) rest

/-- What is left to be done when the sink is closed. -/
def finishWith (p : Plan τ) : Recorded κ τ Unit := do
  reachWith keep .indexed
  if p.cleanup then
    Keeping.beside p.teardown
    reachWith keep .cleanedUp
  reachWith keep .done
  Keeping.beside (do if !(← get).passed then throw .comparison)

def wrapUpWith (p : Plan τ) : Recorded κ τ Unit := do
  withSinkWith keep .closed Sink.close
  p.finishWith keep

def startWith (p : Plan τ) : Recorded κ τ Unit := do
  let (metadata, metrics) ← p.connectWith keep
  p.deployWith keep
  reachWith keep .running
  p.runCasesWith keep metadata metrics 1 p.cases
  p.wrapUpWith keep

end

/-! ### A register changes nothing -/

section
variable (keep : Entry → Option κ) (p : Plan τ)

open Keeping (shadows_beside shadows_beside_bind shadows_bind shadows_pure)

omit [TimeScale τ] in
theorem entered_shadows (entry : RunState → Except Failure α → Option Entry) (m : Stage τ α) :
    (entered keep entry m).Shadows m :=
  Keeping.shadows_noting _ m

omit [TimeScale τ] in
theorem connectWith_shadows : (p.connectWith keep).Shadows p.connect := by
  refine shadows_beside_bind fun session => shadows_beside_bind fun _ => ?_
  refine shadows_beside_bind fun metrics => shadows_beside_bind fun _ => ?_
  exact shadows_bind (entered_shadows keep _ _) fun _ => shadows_pure _

omit [TimeScale τ] in
theorem deployWith_shadows : (p.deployWith keep).Shadows p.deployAssets :=
  shadows_beside_bind fun _ => shadows_beside_bind fun _ => entered_shadows keep _ _

omit [TimeScale τ] in
theorem tuneWith_shadows (c : TestCase) : (p.tuneWith keep c).Shadows (p.tune c) := by
  refine shadows_beside_bind fun s => ?_
  split
  · exact shadows_bind (entered_shadows keep _ _) fun _ => shadows_beside _
  · exact shadows_pure _

omit [TimeScale τ] in
theorem compareWith_shadows (c : TestCase) (results : List Result) :
    (p.compareWith keep c results).Shadows (p.compare c results) := by
  unfold compareWith compare
  cases p.team.compare with
  | none => exact shadows_pure _
  | some comparator =>
    refine shadows_bind (entered_shadows keep _ _) fun verdict => ?_
    split
    · exact shadows_beside_bind fun _ => shadows_beside _
    · exact shadows_pure _

theorem runCaseWith_shadows (metadata : ClusterMetadata) (metrics : MetricsServer) (c : TestCase) :
    (p.runCaseWith keep metadata metrics c).Shadows (p.runCase metadata metrics c) := by
  refine shadows_beside_bind fun _ => shadows_bind (tuneWith_shadows keep p c) fun _ => ?_
  refine shadows_bind (entered_shadows keep _ _) fun results => ?_
  split
  · exact shadows_beside _
  · exact shadows_bind (compareWith_shadows keep p c results) fun _ => entered_shadows keep _ _

theorem runCasesWith_shadows (metadata : ClusterMetadata) (metrics : MetricsServer) (number : Nat)
    (cases : List TestCase) : (p.runCasesWith keep metadata metrics number cases).Shadows
      (p.runCases metadata metrics number cases) := by
  induction cases generalizing number with
  | nil => exact shadows_pure _
  | cons c rest ih =>
    refine shadows_beside_bind fun _ => shadows_beside_bind fun _ => ?_
    exact shadows_bind (runCaseWith_shadows keep p metadata metrics _) fun _ => ih (number + 1)

theorem wrapUpWith_shadows : (p.wrapUpWith keep).Shadows p.wrapUp := by
  have hdone : ∀ u : Unit, Keeping.Shadows (do
      reachWith keep .done
      Keeping.beside (do if !(← get).passed then throw .comparison) : Recorded κ τ Unit)
      (do reach .done; if !(← get).passed then throw .comparison) := fun _ =>
    shadows_bind (entered_shadows keep _ _) fun _ => shadows_beside _
  refine shadows_bind (entered_shadows keep _ _) fun _ =>
    shadows_bind (entered_shadows keep _ _) fun _ => ?_
  split
  · refine shadows_beside_bind fun _ => ?_
    exact shadows_bind (entered_shadows keep _ _) hdone
  · exact hdone ()

/-- **A run with a register does what the run without it does**, whatever the register keeps. -/
theorem startWith_shadows : (p.startWith keep).Shadows p.start := by
  refine shadows_bind (connectWith_shadows keep p) fun (metadata, metrics) => ?_
  refine shadows_bind (deployWith_shadows keep p) fun _ =>
    shadows_bind (entered_shadows keep _ _) fun _ => ?_
  exact shadows_bind (runCasesWith_shadows keep p metadata metrics 1 p.cases) fun _ =>
    wrapUpWith_shadows keep p

end

/-! ### What a register does not keep -/

/-- What is left to be done when the sink is closed. -/
def finish (p : Plan τ) : Stage τ Unit := do
  reach .indexed
  if p.cleanup then
    p.teardown
    reach .cleanedUp
  reach .done
  if !(← get).passed then throw .comparison

theorem wrapUp_eq (p : Plan τ) : p.wrapUp = (do withSink Sink.close; p.finish) := rfl

section
variable {keep : Entry → Option κ}

open Keeping (bind_eq_beside)

omit [TimeScale τ] in
/-- A stage of which nothing is kept has no part in the register. -/
theorem entered_beside {entry : RunState → Except Failure α → Option Entry}
    (h : ∀ s r, (entry s r).bind keep = none) (m : Stage τ α) :
    entered keep entry m = Keeping.beside m := by
  have hnone : (fun s r kept => kept ++ ((entry s r).bind keep).toList) = fun _ _ kept => kept := by
    funext s r kept
    rw [h, Option.toList_none, List.append_nil]
  unfold entered
  rw [hnone, Keeping.beside_eq]

omit [TimeScale τ] in
theorem withSinkWith_beside {entry : Cadence → Except Failure Unit → Entry}
    (h : ∀ cadence r, keep (entry cadence r) = none) (step : Keeping Sink τ Unit) :
    withSinkWith keep entry step = Keeping.beside (withSink step) := by
  refine entered_beside (fun s r => ?_) _
  cases s.cadence? with
  | none => rfl
  | some cadence => exact h cadence r

section
variable (hreached : ∀ phase, keep (.reached phase) = none) (p : Plan τ)
include hreached

omit [TimeScale τ] in
theorem reachWith_beside (phase : Phase) :
    (reachWith keep phase : Recorded κ τ Unit) = Keeping.beside (reach phase) := by
  refine entered_beside (fun _ _ => ?_) _
  exact hreached phase

omit [TimeScale τ] in
theorem connectWith_beside : p.connectWith keep = Keeping.beside p.connect := by
  refine bind_eq_beside rfl fun session => bind_eq_beside rfl fun _ => ?_
  refine bind_eq_beside rfl fun metrics => bind_eq_beside rfl fun _ => ?_
  exact bind_eq_beside (reachWith_beside hreached _) fun _ => rfl

omit [TimeScale τ] in
theorem deployWith_beside : p.deployWith keep = Keeping.beside p.deployAssets :=
  bind_eq_beside rfl fun _ => bind_eq_beside rfl fun _ => reachWith_beside hreached _

theorem finishWith_beside : p.finishWith keep = Keeping.beside p.finish := by
  have hdone : ∀ u : Unit, (do
      reachWith keep .done
      Keeping.beside (do if !(← get).passed then throw .comparison) : Recorded κ τ Unit) =
      Keeping.beside (do reach .done; if !(← get).passed then throw .comparison) := fun _ =>
    bind_eq_beside (reachWith_beside hreached _) fun _ => rfl
  refine bind_eq_beside (reachWith_beside hreached _) fun _ => ?_
  split
  · refine bind_eq_beside rfl fun _ => ?_
    exact bind_eq_beside (reachWith_beside hreached _) hdone
  · exact hdone ()

theorem wrapUpWith_beside (hclosed : ∀ cadence r, keep (.closed cadence r) = none) :
    p.wrapUpWith keep = Keeping.beside p.wrapUp := by
  rw [wrapUp_eq]
  exact bind_eq_beside (withSinkWith_beside hclosed _) fun _ => finishWith_beside hreached p

end

section
variable (htuned : ∀ profile r, keep (.tuned profile r) = none)
  (hmeasured : ∀ c r, keep (.measured c r) = none)
  (hcompared : ∀ c results r, keep (.compared c results r) = none)
  (hhanded : ∀ cadence results r, keep (.handed cadence results r) = none)
  (p : Plan τ)

omit [TimeScale τ] in
include htuned in
theorem tuneWith_beside (c : TestCase) : p.tuneWith keep c = Keeping.beside (p.tune c) := by
  refine bind_eq_beside rfl fun s => ?_
  split
  · exact bind_eq_beside (entered_beside (fun _ => htuned _) _) fun _ => rfl
  · rfl

omit [TimeScale τ] in
include hcompared in
theorem compareWith_beside (c : TestCase) (results : List Result) :
    p.compareWith keep c results = Keeping.beside (p.compare c results) := by
  unfold compareWith compare
  cases p.team.compare with
  | none => rfl
  | some comparator =>
    refine bind_eq_beside (entered_beside (fun _ => hcompared _ _) _) fun verdict => ?_
    split
    · exact bind_eq_beside rfl fun _ => rfl
    · rfl

include htuned hmeasured hcompared hhanded

theorem runCaseWith_beside (metadata : ClusterMetadata) (metrics : MetricsServer) (c : TestCase) :
    p.runCaseWith keep metadata metrics c = Keeping.beside (p.runCase metadata metrics c) := by
  refine bind_eq_beside rfl fun _ => bind_eq_beside (tuneWith_beside htuned p c) fun _ => ?_
  refine bind_eq_beside (entered_beside (fun _ => hmeasured _) _) fun results => ?_
  split
  · rfl
  · exact bind_eq_beside (compareWith_beside hcompared p c results) fun _ =>
      withSinkWith_beside (fun _ => hhanded _ _) _

theorem runCasesWith_beside (metadata : ClusterMetadata) (metrics : MetricsServer) (number : Nat)
    (cases : List TestCase) : p.runCasesWith keep metadata metrics number cases =
      Keeping.beside (p.runCases metadata metrics number cases) := by
  induction cases generalizing number with
  | nil => rfl
  | cons c rest ih =>
    refine bind_eq_beside rfl fun _ => bind_eq_beside rfl fun _ => ?_
    exact bind_eq_beside
      (runCaseWith_beside htuned hmeasured hcompared hhanded p metadata metrics _) fun _ =>
        ih (number + 1)

end

end

/-! ### What a register keeps -/

section
variable {keep : Entry → Option κ} {s s' : RunState} {kept kept' : List κ} {evs : List (Event τ)}

omit [TimeScale τ] in
theorem leaves_entered {entry : RunState → Except Failure α → Option Entry} {m : Stage τ α}
    {r : Except Failure α} : (entered keep entry m).Leaves (s, kept) evs r (s', kept') ↔
      m.Leaves s evs r s' ∧ kept' = kept ++ ((entry s r).bind keep).toList :=
  Keeping.leaves_noting

omit [TimeScale τ] in
/-- A helper changes nothing in the state of the run. -/
theorem leaves_calling {entry : Except Failure α → Entry} {work : Action τ α}
    {r : Except Failure α} (h : (calling keep entry work).Leaves (s, kept) evs r (s', kept')) :
    work.Leaves evs r ∧ s' = s ∧ kept' = kept ++ (keep (entry r)).toList := by
  obtain ⟨hlift, hkept⟩ := leaves_entered.mp h
  obtain ⟨hwork, hsame⟩ := Keeping.leaves_lift.mp hlift
  exact ⟨hwork, hsame, hkept⟩

omit [TimeScale τ] in
theorem leaves_calling_bind {entry : Except Failure α → Entry} {work : Action τ α}
    {e : α → Recorded κ τ β} {r : Except Failure β}
    (h : (calling keep entry work >>= e).Leaves (s, kept) evs r (s', kept')) :
    (∃ x, work.Leaves evs (.error x) ∧ r = .error x ∧ s' = s ∧
        kept' = kept ++ (keep (entry (.error x))).toList) ∨
      ∃ v first rest, work.Leaves first (.ok v) ∧
        (e v).Leaves (s, kept ++ (keep (entry (.ok v))).toList) rest r (s', kept') ∧
        evs = first ++ rest := by
  rcases Keeping.leaves_bind.mp h with ⟨x, hx, rfl⟩ | ⟨v, ⟨s₁, kept₁⟩, first, rest, hv, hr, rfl⟩
  · obtain ⟨hwork, rfl, rfl⟩ := leaves_calling hx
    exact .inl ⟨x, hwork, rfl, rfl, rfl⟩
  · obtain ⟨hwork, rfl, rfl⟩ := leaves_calling hv
    exact .inr ⟨v, first, rest, hwork, hr, rfl⟩

omit [TimeScale τ] in
/-- What is kept of a step of the sink is told by the sink that the run had. -/
theorem leaves_withSinkWith {entry : Cadence → Except Failure Unit → Entry}
    {step : Keeping Sink τ Unit} {r : Except Failure Unit} {tell : Cadence → κ}
    (h : (withSinkWith keep entry step).Leaves (s, kept) evs r (s', kept'))
    (htell : ∀ cadence, keep (entry cadence r) = some (tell cadence)) :
    (withSink step).Leaves s evs r s' ∧ kept' = kept ++ s.cadence?.toList.map tell := by
  obtain ⟨hstep, rfl⟩ := leaves_entered.mp h
  refine ⟨hstep, congrArg (kept ++ ·) ?_⟩
  cases s.cadence? with
  | none => rfl
  | some cadence => exact congrArg Option.toList (htell cadence)

/-- What is kept of a stage is related to the states before and after it, and to its events. -/
def Enters (P : RunState → List (Event τ) → List κ → RunState → Prop) (d : Recorded κ τ α) : Prop :=
  ∀ s kept evs r s' kept', d.Leaves (s, kept) evs r (s', kept') →
    ∃ new, kept' = kept ++ new ∧ P s evs new s'

/-- A relation that holds when nothing is done and of two rows after each other. -/
structure Composes (P : RunState → List (Event τ) → List κ → RunState → Prop) : Prop where
  idle : ∀ s, P s [] [] s
  both : ∀ {s s₁ s' evs later new more}, P s evs new s₁ → P s₁ later more s' →
    P s (evs ++ later) (new ++ more) s'

variable {P : RunState → List (Event τ) → List κ → RunState → Prop}

omit [TimeScale τ] in
theorem enters_pure (hP : Composes P) (v : α) : Enters P (pure v : Recorded κ τ α) := by
  intro s kept evs r s' kept' h
  obtain ⟨rfl, -, hs⟩ := Keeping.leaves_pure.mp h
  cases hs
  exact ⟨[], (List.append_nil _).symm, hP.idle s⟩

omit [TimeScale τ] in
theorem enters_bind (hP : Composes P) {d : Recorded κ τ α} {e : α → Recorded κ τ β}
    (hd : Enters P d) (he : ∀ v, Enters P (e v)) : Enters P (d >>= e) := by
  intro s kept evs r s' kept' h
  rcases Keeping.leaves_bind.mp h with ⟨x, hx, rfl⟩ | ⟨v, ⟨s₁, kept₁⟩, _, _, hv, hr, rfl⟩
  · exact hd _ _ _ _ _ _ hx
  · obtain ⟨new, rfl, hnew⟩ := hd _ _ _ _ _ _ hv
    obtain ⟨more, rfl, hmore⟩ := he v _ _ _ _ _ _ hr
    exact ⟨new ++ more, List.append_assoc .., hP.both hnew hmore⟩

omit [TimeScale τ] in
theorem enters_beside {m : Stage τ α} (hm : ∀ s evs r s', m.Leaves s evs r s' → P s evs [] s') :
    Enters P (Keeping.beside m) := by
  intro s kept evs r s' kept' h
  obtain ⟨hleaves, rfl⟩ := Keeping.leaves_beside.mp h
  exact ⟨[], (List.append_nil _).symm, hm _ _ _ _ hleaves⟩

omit [TimeScale τ] in
theorem enters_calling {entry : Except Failure α → Entry} {work : Action τ α}
    (hwork : ∀ s evs r, work.Leaves evs r → P s evs (keep (entry r)).toList s) :
    Enters P (calling keep entry work) := by
  intro s kept evs r s' kept' h
  obtain ⟨hleaves, rfl, rfl⟩ := leaves_calling h
  exact ⟨_, rfl, hwork _ evs r hleaves⟩

end

end Plan
end IngressBench
