import IngressBench.Proofs.Readiness.Readings
import IngressBench.Proofs.Run.Sample
import IngressBench.Proofs.Run.Signals
import IngressBench.Proofs.Run.Spells
import Mathlib.Algebra.Order.BigOperators.Group.List

/-!
A cluster that never converges does not keep a run from ending. On an exact clock every wait of a run
ends by itself, so that the run would be the same with any larger budgets of looks; every wait looks
once more than pauses fit into it, at most; and all pauses together last no longer than two waits for
readiness for each test case, one wait for each profile that the routers take, and one wait for the
cleanup (`start_ends_in_time`). That holds whatever the cluster answers and however long its answers
take.
-/
namespace IngressBench

variable {τ σ : Type} [TimeScale τ]

/-- A tuner of a run, and the same tuner with other budgets of looks. -/
inductive Tuner (limits : Limits τ) (more : τ → τ → Nat) :
    (String → Action τ Unit) → (String → Action τ Unit) → Prop
  | outside : Tuner limits more Outside.tune Outside.tune
  | own : Tuner limits more (Tuning.apply limits.pace limits.tuning)
      (@Tuning.apply τ (TimeScale.allowing more) limits.pace limits.tuning)

/-- A run with another tuner. -/
def Plan.tunedBy (p : Plan τ) (tune : String → Action τ Unit) : Plan τ :=
  { p with team := { p.team with tune } }

/-- A wait for a condition is a wait that fails when its fault is told. -/
theorem waitUntil_eq (pace : Pace τ) (timeout : τ) (condition : Action τ Bool) :
    waitUntil pace timeout condition =
      watch pace timeout (do return ((), ← condition)) >>= fun
        | ((), none) => pure ()
        | ((), some fault) => throw (.wait fault) := by
  unfold watch
  rw [bind_assoc]
  rfl

/-! ### Steps that do not pause -/

section
omit [TimeScale τ]

theorem Event.Calm.still {e : Event τ} (h : e.Calm) : e.Still := by
  cases e with
  | stopped => exact h
  | _ => trivial

theorem Action.Calm.still {α : Type} {a : Action τ α} (h : a.Calm) : a.Only Event.Still :=
  fun evs r hl e he => ((h evs r hl).1 e he).still

theorem Action.HandsOn.still {α : Type} {a : Action τ α} {x : Failure} (h : a.HandsOn x) :
    a.Only Event.Still :=
  fun evs r hl e he => ((h evs r hl).1 e he).calm.still

theorem brisk_namespaceGone (ns : String) :
    (namespaceGone ns : Action τ Bool).Only Event.Brisk := by
  refine Action.only_bind (Action.only_ask fun _ _ => trivial) fun reply => ?_
  cases reply with
  | ok _ => exact Action.only_pure _
  | error fault =>
    dsimp only
    split
    · exact Action.only_pure _
    · exact Action.only_throw _

theorem still_throwNotReady (ns name : String) (fault : WaitFault) (d : Deployment) :
    Action.Only Event.Still
      (do throw (← notReadyFailure ns name fault d) : Action τ Unit) :=
  fun _ _ hl e he => ((throwNotReady_leaves hl).1 e he).calm.still

end

/-! ### Waits of a run -/

variable [Field τ] [LinearOrder τ] [IsStrictOrderedRing τ] [FloorSemiring τ] [TimeScale.Exact τ]
  {w : World τ σ} {limits : Limits τ} {more : τ → τ → Nat}

section
variable (hw : w.Forward) (hl : limits.Proper)
  (hmore : ∀ interval timeout, TimeScale.rounds interval timeout ≤ more interval timeout)
include hw hl hmore

/-- A wait spends what it may last. -/
theorem spends_watch {β : Type} {timeout : τ} {look : Action τ (β × Bool)}
    (htimeout : timeout ∈ limits.timeouts) (hlook : look.Only Event.Brisk) :
    Spends w limits timeout (watch limits.pace timeout look).run
      (@watch τ β (TimeScale.allowing more) limits.pace timeout look).run where
  same h := watch_allowing limits.pace hw hlook hl.interval hmore timeout h
  waits h := by
    obtain ⟨looks, rests, hends, -⟩ :=
      watch_ends limits.pace hw hlook hl.interval timeout h
    refine ⟨_, .wait htimeout hlook hends, ?_⟩
    have hmono : (h.retuned : τ) ≤ (w.run (watch limits.pace timeout look).run h).2.retuned :=
      Nat.cast_le.mpr (w.retuned_le _ h)
    have htuning := hl.tuning
    simp only [List.map_cons, List.map_nil, List.sum_singleton]
    gcongr

theorem spends_awaitReady {timeout : τ} (htimeout : timeout ∈ limits.timeouts) (ns name : String) :
    Spends w limits timeout (awaitReady limits.pace ns name timeout).run
      (@awaitReady τ (TimeScale.allowing more) limits.pace ns name timeout).run := by
  refine .after hl (Action.only_log trivial) (hl.timeout htimeout) fun _ => ?_
  refine ((spends_watch hw hl hmore htimeout (brisk_checkReady ns name)).step hl le_rfl
    fun (d, fault) => ?_).mono (by rw [add_zero])
  cases fault with
  | none => exact .still hl (Action.only_pure _) le_rfl
  | some fault => exact .still hl (still_throwNotReady ns name fault d) le_rfl

/-! ### Scaling -/

theorem spends_awaitReported (ns name : String) :
    Spends w limits limits.readiness (awaitReported limits.pace ns name limits.readiness).run
      (@awaitReported τ (TimeScale.allowing more) limits.pace ns name limits.readiness).run := by
  refine (Spends.attempt (b := 0) (spends_awaitReady hw hl hmore (List.mem_cons_self) ns name)
    fun e => ?_).mono (by rw [add_zero])
  cases e with
  | ok _ => exact .still hl (Action.only_pure _) le_rfl
  | error failure => exact .still hl (handsOn_reported failure).still le_rfl

theorem spends_scaleTo (ns name : String) (replicas : Int) :
    Spends w limits limits.readiness (scaleTo limits.pace limits.readiness ns name replicas).run
      (@scaleTo τ (TimeScale.allowing more) limits.pace limits.readiness ns name replicas).run := by
  refine .after hl (Action.only_apiOrFail fun _ _ => trivial) hl.readiness fun d => ?_
  refine .after hl (Action.only_ofExcept _) hl.readiness fun ready => ?_
  split
  · exact .still hl (Action.only_bind (Action.only_log trivial) fun _ => Action.only_pure _)
      hl.readiness
  · refine .after hl (Action.only_log trivial) hl.readiness fun _ => ?_
    refine .after hl (Action.only_apiOrFail fun _ _ => trivial) hl.readiness fun _ => ?_
    exact ((spends_awaitReported hw hl hmore ns name).step hl le_rfl fun _ =>
      .still hl (Action.only_pure _) le_rfl).mono (by rw [add_zero])

theorem spends_reconcile (ns : String) (servers clients : Int) :
    Spends w limits (2 * limits.readiness)
      (reconcile limits.pace limits.readiness ns servers clients).run
      (@reconcile τ (TimeScale.allowing more) limits.pace limits.readiness ns servers clients).run := by
  refine ((spends_scaleTo hw hl hmore ns Assets.serverName servers).step hl hl.readiness
    fun _ => ?_).mono (by rw [two_mul])
  exact ((spends_scaleTo hw hl hmore ns Assets.clientName clients).step hl le_rfl fun _ =>
    .still hl (Action.only_pure _) le_rfl).mono (by rw [add_zero])

/-! ### Tuning -/

omit hw hmore [FloorSemiring τ] [TimeScale.Exact τ] in
/-- **A profile is paid for when the routers take it**: what comes after that may last as long as a
wait for it. -/
theorem spends_retune {β : Type} (options : List (String × Document))
    {f g : (ApiCall.tune options).Reply → Action τ β}
    (hf : ∀ v, Spends w limits limits.tuning (f v).run (g v).run) :
    Spends w limits 0 (Action.apiOrFail (.tune options) >>= f).run
      (Action.apiOrFail (.tune options) >>= g).run := by
  have hstill : (Action.apiOrFail (.tune options) : Action τ _).Only Event.Still :=
    Action.only_apiOrFail fun _ _ => trivial
  refine ⟨(Spends.after hl hstill hl.tuning hf).same, fun h => ?_⟩
  obtain ⟨evs, hleaves, hevents⟩ := w.run_leaves (Action.apiOrFail (.tune options)).run h
  obtain ⟨reply, time, rfl, hreply⟩ := Action.leaves_apiOrFail.mp hleaves
  rcases hrun : w.run (Action.apiOrFail (.tune options)).run h with ⟨outcome, h₁⟩
  rw [hrun] at hreply hevents
  obtain rfl : outcome = reply.mapError ApiFault.failure := hreply
  cases reply with
  | error fault =>
    -- The routers have refused it, so that nothing comes after it.
    have hafter : Spends w limits 0 (.done (.error fault.failure) : Program τ (Except Failure β))
        (.done (.error fault.failure)) := .still hl (Action.only_throw _) le_rfl
    obtain ⟨spells, hwaits, hsum⟩ := hafter.waits h₁
    have hnone : h₁.retuned = h.retuned := by
      unfold History.retuned
      rw [hevents]
      exact List.countP_cons_of_neg Bool.false_ne_true
    refine ⟨spells, .bind (.still hstill) ?_, ?_⟩
    · rw [hrun]
      exact hwaits
    · rw [World.run_step_error hrun, ← hnone]
      exact hsum
  | ok v =>
    obtain ⟨spells, hwaits, hsum⟩ := (hf v).waits h₁
    have hone : h₁.retuned = h.retuned + 1 := by
      unfold History.retuned
      rw [hevents]
      exact List.countP_cons_of_pos rfl
    refine ⟨spells, .bind (.still hstill) ?_, ?_⟩
    · rw [hrun]
      exact hwaits
    · rw [World.run_step_ok hrun]
      rw [hone, Nat.cast_add_one] at hsum
      linarith

theorem spends_apply (profile : String) :
    Spends w limits 0 (Tuning.apply limits.pace limits.tuning profile).run
      (@Tuning.apply τ (TimeScale.allowing more) limits.pace limits.tuning profile).run := by
  refine .after hl (Action.only_ofExcept _) le_rfl fun options => ?_
  refine .after hl (Action.only_log trivial) le_rfl fun _ => ?_
  have htuning : limits.tuning ∈ limits.timeouts := by simp [Limits.timeouts]
  have hoptions := spends_retune hl options fun _ =>
    spends_awaitReady hw hl hmore htuning routerNamespace Tuning.routerDeployment
  refine (hoptions.attempt (b := 0) fun e => ?_).mono (by rw [add_zero])
  cases e with
  | ok _ => exact .still hl (Action.only_pure _) le_rfl
  | error failure => exact .still hl (Action.only_throw _) le_rfl

/-! ### Removing -/

theorem spends_removeNamespace (ns : String) :
    Spends w limits limits.cleanup (removeNamespace limits.pace limits.cleanup ns).run
      (@removeNamespace τ (TimeScale.allowing more) limits.pace limits.cleanup ns).run := by
  refine .after hl (Action.only_apiOrFail fun _ _ => trivial) hl.cleanup fun _ => ?_
  refine .after hl (Action.only_log trivial) hl.cleanup fun _ => ?_
  rw [waitUntil_eq, @waitUntil_eq τ (TimeScale.allowing more)]
  have hlook : Action.Only Event.Brisk (do return ((), ← namespaceGone ns) : Action τ (Unit × Bool)) :=
    Action.only_bind (brisk_namespaceGone ns) fun _ => Action.only_pure _
  refine ((spends_watch hw hl hmore (by simp [Limits.timeouts]) hlook).step hl le_rfl
    fun ((), fault) => ?_).mono (by rw [add_zero])
  cases fault with
  | none => exact .still hl (Action.only_pure _) le_rfl
  | some fault => exact .still hl (Action.only_throw _) le_rfl

theorem spends_removeAssets (existed : Bool) (ns : String) :
    Spends w limits limits.cleanup (removeAssets limits.pace limits.cleanup existed ns).run
      (@removeAssets τ (TimeScale.allowing more) limits.pace limits.cleanup existed ns).run := by
  refine .after hl (Action.only_log trivial) hl.cleanup fun _ => ?_
  have hbinding : ∀ _ : Unit, Spends w limits 0 (Action.apiOrFail (.delete (Assets.bindingRef ns))).run
      (Action.apiOrFail (.delete (Assets.bindingRef ns))).run := fun _ =>
    .still hl (Action.only_apiOrFail fun _ _ => trivial) le_rfl
  cases existed with
  | true =>
    exact .still hl (Action.only_bind (calm_deleteAll _).still fun _ =>
      Action.only_apiOrFail fun _ _ => trivial) hl.cleanup
  | false =>
    exact ((spends_removeNamespace hw hl hmore ns).step hl le_rfl hbinding).mono (by rw [add_zero])

end

namespace Plan

/-! ### Stages that do not pause -/

section
omit [Field τ] [LinearOrder τ] [IsStrictOrderedRing τ] [FloorSemiring τ] [TimeScale.Exact τ]
variable {p : Plan τ}

section
omit [TimeScale τ]

theorem still_reach (phase : Phase) : (reach phase : Stage τ Unit).Only Event.Still :=
  Keeping.only_modify _

theorem still_log (level : Level) (text : String) :
    (Keeping.lift (Action.log level text) : Stage τ Unit).Only Event.Still :=
  Keeping.only_lift (Action.only_log trivial)

theorem still_deployAssets : p.deployAssets.Only Event.Still :=
  Keeping.only_bind (Keeping.only_lift (calm_deploy _).still) fun _ =>
    Keeping.only_bind (Keeping.only_modify _) fun _ => still_reach _

end

variable (hp : p.team.Usual)
include hp

theorem still_connection : p.team.connect.Only Event.Still := by
  rcases hp.connect with ⟨ns, hc⟩ | ⟨env, settings, hc⟩
  · rw [hc, Outside.connect_eq]
    exact Outside.only_answered fun _ _ => trivial
  · rw [hc]
    exact Session.only_connect (fun _ _ => trivial) (fun _ _ _ _ => trivial) env settings

theorem still_connect : p.connect.Only Event.Still := by
  refine Keeping.only_bind (only_session (still_connection hp)) fun session => ?_
  refine Keeping.only_bind (Keeping.only_lift Discovery.calm_metadata.still) fun _ => ?_
  refine Keeping.only_bind (Keeping.only_lift (Discovery.calm_metricsServer _ _).still) fun _ => ?_
  refine Keeping.only_bind (Keeping.only_lift (calm_withBalancer _).still) fun _ => ?_
  exact Keeping.only_bind (still_reach _) fun _ => Keeping.only_pure _

theorem still_drive (c : TestCase) (metadata : ClusterMetadata) (server : Option MetricsServer)
    (podMetrics : Bool) : (p.team.drive c metadata server podMetrics).Only Event.Still := by
  rcases hp.drive with hd | ⟨ns, hd⟩
  · rw [hd, Outside.drive_eq]
    exact Outside.only_answered fun _ _ => trivial
  · rw [hd]
    exact (Load.calm_run ns c metadata server podMetrics).still

theorem still_compare (c : TestCase) (results : List Result) :
    (p.compare c results).Only Event.Still := by
  unfold compare
  rcases hp.compare with hnone | hsome
  · rw [hnone]
    exact Keeping.only_pure _
  · rw [hsome]
    refine Keeping.only_bind (Keeping.only_lift ?_) fun found => ?_
    · rw [Outside.compare_eq]
      exact Outside.only_answered fun _ _ => trivial
    · cases found with
      | true => exact Keeping.only_pure _
      | false => exact Keeping.only_bind (still_log _ _) fun _ => Keeping.only_modify _

end

/-! ### Stages -/

section
variable {p : Plan τ} {tune : String → Action τ Unit} (hp : p.team.Usual) (hw : w.Forward)
  (hl : p.limits.Proper)
  (hmore : ∀ interval timeout, TimeScale.rounds interval timeout ≤ more interval timeout)
  (htuner : Tuner p.limits more p.team.tune tune)
include hw hl hmore

theorem spends_teardown :
    p.teardown.Spends w p.limits p.limits.cleanup
      (@teardown τ (TimeScale.allowing more) (p.tunedBy tune)) := by
  refine Keeping.spends_after hl Keeping.only_get hl.cleanup fun s => ?_
  split
  · exact Keeping.spends_still hl (Keeping.only_pure _) hl.cleanup
  refine Keeping.spends_after hl (Keeping.only_modify _) hl.cleanup fun _ => ?_
  cases s.session with
  | some _ => exact Keeping.spends_lift hl (spends_removeAssets hw hl hmore s.existed p.settings.ns)
  | none =>
    exact Keeping.spends_still hl (Keeping.only_bind (still_log _ _) fun _ => Keeping.only_throw _)
      hl.cleanup

theorem spends_wrapUp :
    p.wrapUp.Spends w p.limits p.limits.cleanup
      (@wrapUp τ (TimeScale.allowing more) (p.tunedBy tune)) := by
  have hverdict : (do reach .done; if !(← get).passed then throw .comparison : Stage τ Unit).Only
      Event.Still := by
    refine Keeping.only_bind (still_reach _) fun _ => Keeping.only_bind Keeping.only_get fun s => ?_
    split
    · exact Keeping.only_throw _
    · exact Keeping.only_pure _
  have hclose : (withSink Sink.close : Stage τ Unit).Only Event.Still :=
    only_withSink (Sink.only_close (fun _ _ => trivial) fun _ _ _ _ => trivial)
  refine Keeping.spends_after hl hclose hl.cleanup fun _ => ?_
  refine Keeping.spends_after hl (still_reach _) hl.cleanup fun _ => ?_
  show Keeping.Spends w p.limits p.limits.cleanup (if p.cleanup then _ else _)
    (if p.cleanup then _ else _)
  split
  · refine (Keeping.spends_bind hl (spends_teardown hw hl hmore) le_rfl fun _ => ?_).mono
      (by rw [add_zero])
    exact Keeping.spends_still hl (Keeping.only_bind (still_reach _) fun _ => hverdict) le_rfl
  · exact Keeping.spends_still hl hverdict hl.cleanup

include htuner

theorem spends_tuner (profile : String) :
    Spends w p.limits 0 (p.team.tune profile).run (tune profile).run := by
  generalize p.team.tune = own at htuner
  cases htuner with
  | own => exact spends_apply hw hl hmore profile
  | outside =>
    rw [Outside.tune_eq]
    exact .still hl (Outside.only_answered fun _ _ => trivial) le_rfl

theorem spends_tune (c : TestCase) : (p.tune c).Spends w p.limits 0 ((p.tunedBy tune).tune c) := by
  refine Keeping.spends_after hl Keeping.only_get le_rfl fun s => ?_
  split
  · refine (Keeping.spends_bind (b := 0) hl (Keeping.spends_lift hl
      (spends_tuner hw hl hmore htuner c.tuning)) le_rfl fun _ => ?_).mono (by rw [add_zero])
    exact Keeping.spends_still hl (Keeping.only_modify _) le_rfl
  · exact Keeping.spends_still hl (Keeping.only_pure _) le_rfl

include hp

/-- **A test case waits for its two deployments**, and for its profile. -/
theorem spends_runCase (metadata : ClusterMetadata) (metrics : MetricsServer) (c : TestCase) :
    (p.runCase metadata metrics c).Spends w p.limits (2 * p.limits.readiness)
      (@runCase τ (TimeScale.allowing more) (p.tunedBy tune) metadata metrics c) := by
  refine (Keeping.spends_bind hl (Keeping.spends_lift hl (spends_reconcile hw hl hmore _ _ _)) le_rfl
    fun _ => ?_).mono (by rw [add_zero])
  refine (Keeping.spends_bind hl (spends_tune hw hl hmore htuner c) le_rfl fun _ => ?_).mono
    (by rw [add_zero])
  refine Keeping.spends_still hl ?_ le_rfl
  refine Keeping.only_bind (Keeping.only_lift (still_drive hp _ _ _ _)) fun results => ?_
  split
  · exact still_log _ _
  · refine Keeping.only_bind (still_compare hp c results) fun _ => ?_
    exact only_withSink (Sink.only_accept (fun _ _ => trivial) (fun _ _ _ _ => trivial) _)

theorem spends_runCases (metadata : ClusterMetadata) (metrics : MetricsServer) (number : Nat)
    (cases : List TestCase) :
    (p.runCases metadata metrics number cases).Spends w p.limits
      (cases.length * (2 * p.limits.readiness))
      (@runCases τ (TimeScale.allowing more) (p.tunedBy tune) metadata metrics number cases) := by
  have htwice : 0 ≤ 2 * p.limits.readiness := mul_nonneg zero_le_two hl.readiness
  induction cases generalizing number with
  | nil => exact Keeping.spends_still hl (Keeping.only_pure _) (by simp)
  | cons c rest ih =>
    have hrest : 0 ≤ (rest.length : τ) * (2 * p.limits.readiness) :=
      mul_nonneg (Nat.cast_nonneg _) htwice
    rw [List.length_cons, Nat.cast_add_one, add_mul, one_mul, add_comm]
    refine Keeping.spends_after hl (still_log _ _) (add_nonneg htwice hrest) fun _ => ?_
    refine Keeping.spends_after hl (still_log _ _) (add_nonneg htwice hrest) fun _ => ?_
    exact Keeping.spends_bind hl (spends_runCase hp hw hl hmore htuner metadata metrics _) hrest
      fun _ => ih (number + 1)

/-- **A run spends no more than its test cases, its profiles and its cleanup are allowed.** -/
theorem spends_start :
    p.start.Spends w p.limits (p.cases.length * (2 * p.limits.readiness) + p.limits.cleanup)
      (@start τ (TimeScale.allowing more) (p.tunedBy tune)) := by
  have hcases : 0 ≤ (p.cases.length : τ) * (2 * p.limits.readiness) :=
    mul_nonneg (Nat.cast_nonneg _) (mul_nonneg zero_le_two hl.readiness)
  have hall := add_nonneg hcases hl.cleanup
  refine Keeping.spends_after hl (still_connect hp) hall fun (metadata, metrics) => ?_
  refine Keeping.spends_after hl still_deployAssets hall fun _ => ?_
  refine Keeping.spends_after hl (still_reach _) hall fun _ => ?_
  exact Keeping.spends_bind hl (spends_runCases hp hw hl hmore htuner metadata metrics 1 p.cases)
    hl.cleanup fun _ => spends_wrapUp hw hl hmore

end

/-- What is known of the waits of a run, of its pauses, and of the number of profiles that the routers
have taken. -/
structure InTime (p : Plan τ) (spells : List (Spell τ)) (pauses : List τ) (retuned : Nat) : Prop where
  /-- The pauses of the run are those of its waits. -/
  pauses_eq : pauses = spells.flatMap Spell.rests
  /-- Every wait looks once more than pauses fit into it, at most, and its pauses last no longer than
  it may. -/
  bounded : ∀ spell ∈ spells, spell.timeout ∈ p.limits.timeouts ∧
    spell.looks ≤ ⌈spell.timeout / p.limits.interval⌉₊ + 1 ∧ spell.rests.sum ≤ spell.timeout
  /-- All waits together may last no longer than two waits for readiness for each test case, one wait
  for each profile, and one for the cleanup. -/
  allowed : (spells.map Spell.timeout).sum ≤
    p.cases.length * (2 * p.limits.readiness) + retuned * p.limits.tuning + p.limits.cleanup
  /-- All pauses together last no longer than that. -/
  total : pauses.sum ≤
    p.cases.length * (2 * p.limits.readiness) + retuned * p.limits.tuning + p.limits.cleanup

/-- **A run ends in time**, on an exact clock that answers do not turn back: it would be the same with
any larger budgets of looks, so that all its waits end by themselves; and they and their pauses are
bounded (see `InTime`). -/
theorem start_ends_in_time (p : Plan τ) (hp : p.team.Usual) (hl : p.limits.Proper) (w : World τ σ)
    (hw : w.Forward) (more : τ → τ → Nat)
    (hmore : ∀ interval timeout, TimeScale.rounds interval timeout ≤ more interval timeout)
    (tune : String → Action τ Unit) (htuner : Tuner p.limits more p.team.tune tune) (now : τ)
    (world : σ) (session : Option Session) (sink : Option Sink) :
    let begun := p.start.perform (.fresh session sink)
    let run := w.trace now world begun
    w.trace now world
        ((@start τ (TimeScale.allowing more) (p.tunedBy tune)).perform (.fresh session sink)) = run ∧
      ∃ spells, Waits w p.limits begun { now, state := world } spells ∧
        InTime p spells (w.pauses begun { now, state := world }) (run.2.countP Event.retunes) := by
  intro begun run
  have hspends := spends_start hp hw hl hmore htuner (.fresh session sink)
  refine ⟨congrArg (fun (a, h) => (a, h.events.reverse)) (hspends.same { now, state := world }), ?_⟩
  obtain ⟨spells, hwaits, hsum⟩ := hspends.waits { now, state := world }
  have hpauses := hwaits.pauses_eq hw hl
  have hbounded := hwaits.bounded hw hl
  have hretuned : (w.run begun { now, state := world }).2.retuned =
      run.2.countP Event.retunes := (List.countP_reverse ..).symm
  have hallowed : (spells.map Spell.timeout).sum ≤ p.cases.length * (2 * p.limits.readiness) +
      run.2.countP Event.retunes * p.limits.tuning + p.limits.cleanup := by
    rw [← hretuned]
    have hnone : ({ now, state := world } : History τ σ).retuned = 0 := rfl
    rw [hnone, Nat.cast_zero, zero_mul, add_zero] at hsum
    linarith
  refine ⟨spells, hwaits, hpauses, hbounded, hallowed, ?_⟩
  rw [hpauses, List.flatMap_def, List.sum_flatten, List.map_map]
  exact (List.sum_le_sum fun spell hspell => (hbounded spell hspell).2.2).trans hallowed

end Plan

namespace Sample

/-- The cluster whose deployments never become ready, with answers that take half a unit of time. -/
def slow : World ℚ Ideal where
  answer q s :=
    let (r, _, s') := stuck.answer q s
    (r, 1 / 2, s')

/-- A run that tunes by itself, and waits for four units of time at most. -/
def waiting (cases : List TestCase) : Plan ℚ where
  run := "run"
  cleanup := true
  cases := cases
  settings := {}
  limits := ⟨1, 4, 4, 4⟩
  team := {
    connect := Outside.connect "ingress-perf"
    drive := Outside.drive
    tune := Tuning.apply ⟨1, true⟩ 4 }

theorem waiting_usual (cases : List TestCase) : (waiting cases).team.Usual :=
  ⟨.inl ⟨_, rfl⟩, .inl rfl, .inr ⟨_, _, rfl⟩, .inl rfl⟩

theorem waiting_proper (cases : List TestCase) : (waiting cases).limits.Proper :=
  ⟨one_pos, four_pos.le, four_pos.le, four_pos.le⟩

theorem slow_forward : slow.Forward :=
  fun _ _ => one_half_pos.le

end Sample

namespace Plan

/-- A deployment that never becomes ready: the run ends after three pauses, and would end so with a
hundred more looks. -/
theorem start_ends_in_time_slow :
    let p := Sample.waiting [{ serverReplicas := 2, tuning := "maxConnections=auto" }]
    let more : ℚ → ℚ → Nat := fun interval timeout => ⌈timeout / interval⌉₊ + 100
    let begun := p.start.perform (.fresh none none)
    p.team.Usual ∧ p.limits.Proper ∧ Sample.slow.Forward ∧
      Sample.slow.trace 0 {} ((@start ℚ (TimeScale.allowing more) (p.tunedBy
        (@Tuning.apply ℚ (TimeScale.allowing more) p.limits.pace p.limits.tuning))).perform
          (.fresh none none)) = Sample.slow.trace 0 {} begun ∧
      (∃ spells, Waits Sample.slow p.limits begun { now := 0, state := {} } spells ∧
        InTime p spells [1, 1, 1 / 2] 0) ∧
      (Sample.slow.trace 0 {} begun).1.2.phase = .running := by
  intro p more begun
  have hmore : ∀ interval timeout : ℚ, TimeScale.rounds interval timeout ≤ more interval timeout :=
    fun _ _ => Nat.le_add_right _ _
  obtain ⟨hsame, spells, hwaits, htime⟩ := start_ends_in_time p (Sample.waiting_usual _)
    (Sample.waiting_proper _) Sample.slow Sample.slow_forward more hmore _ .own 0 {} none none
  have hpauses : Sample.slow.pauses begun { now := 0, state := {} } = [1, 1, 1 / 2] := by
    decide +kernel
  have hretuned : (Sample.slow.trace 0 {} begun).2.countP Event.retunes = 0 := by decide +kernel
  refine ⟨Sample.waiting_usual _, Sample.waiting_proper _, Sample.slow_forward, hsame,
    ⟨spells, hwaits, ?_⟩, by decide +kernel⟩
  rw [← hpauses, ← hretuned]
  exact htime

end Plan
end IngressBench
