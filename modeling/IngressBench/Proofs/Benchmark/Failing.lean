import IngressBench.Proofs.Benchmark.Load
import IngressBench.Proofs.Benchmark.Preparation
import IngressBench.Proofs.Benchmark.Routers
import IngressBench.Proofs.Program.Ends

/-!
What a measurement fails from. A command that fails, or a query that ends the sample that it is asked in,
is the last thing that happens, and the measurement fails as it does (`Load.endsAt_run`). There is
nothing to combine only without outputs (`Load.ofOutputs_noOutput_iff`), so samples that have commands to
run do not fail for want of them (`Load.fails_samples`).
-/
namespace IngressBench

variable {τ : Type}

/-- Whether a command was run in a pod. -/
def Event.isExec : Event τ → Bool
  | .asked (.exec _) _ _ => true
  | _ => false

namespace Load

variable {ns : String} {c : TestCase} {metadata : ClusterMetadata} {routers : Routers}
  {command : List String} {pod : Option String} {pods : List (Option String)} {number left : Nat}

/-! ### Commands -/

/-- The failure that a command makes, if it fails. -/
def fault? : Event τ → Option Failure
  | .asked (.exec call) reply _ =>
    match heard call.pod reply with
    | .error x => some x
    | .ok _ => none
  | _ => none

theorem heard_ne_noOutput (pod : Option String) (reply : Except ApiFault Document) :
    heard pod reply ≠ .error (.benchmark .noOutput) := by
  cases reply with
  | error fault => cases fault <;> exact nofun
  | ok output =>
    cases output with
    | text s =>
      show (Json.read s).mapError _ ≠ _
      cases Json.read s <;> exact nofun
    | _ => exact nofun

theorem fault?_exec {call : ExecCall} {reply : Except ApiFault Document} {time : τ} {x : Failure} :
    fault? (.asked (.exec call) reply time) = some x ↔ heard call.pod reply = .error x := by
  dsimp only [fault?]
  cases heard call.pod reply <;> simp

/-- A command that printed no document fails. -/
theorem fault?_of_fails {e : Event τ} (hexec : e.isExec = true) (hout : e.output? = none) :
    ∃ x, fault? e = some x := by
  unfold Event.isExec at hexec
  split at hexec
  · rename_i call reply time
    have hnone : (heard call.pod reply).toOption = none :=
      (output?_exec call reply time).symm.trans hout
    cases hheard : heard call.pod reply with
    | error x => exact ⟨x, fault?_exec.mpr hheard⟩
    | ok d =>
      rw [hheard] at hnone
      cases hnone
  · cases hexec

theorem endsAt_runIn : (runIn ns command pod : Action τ Document).EndsAt fault? := by
  rw [runIn_eq]
  apply Action.endsAt_ask_bind
  · intro reply time _
    exact Action.endsAt_of_only (Action.only_ofExcept _)
  · intro reply time x hx
    have hheard : heard pod reply = .error x := fault?_exec.mp hx
    rw [hheard]
    rfl

/-! ### How a measurement ends -/

variable [TimeScale τ]

/-- A question whose reply can end a sample by itself. -/
def Settles : Question → Prop
  | .exec _ | .http _ => True
  | _ => False

section
variable {fatal : Event τ → Option Failure}
  (hidle : ∀ e : Event τ, (e.Asks fun q => ¬ Settles q) → fatal e = none)
  (hruns : ∀ command pod, (runIn ns command pod : Action τ Document).EndsAt fatal)
include hidle hruns

omit [TimeScale τ] hidle in
theorem endsAt_runAll : (runAll ns command pods : Action τ (List Document)).EndsAt fatal := by
  induction pods with
  | nil => exact Action.endsAt_of_only (Action.only_pure _)
  | cons pod rest ih =>
    apply Action.endsAt_bind (hruns command pod)
    intro _ output _
    apply Action.endsAt_bind ih
    intro _ outputs _
    exact Action.endsAt_of_only (Action.only_pure _)

omit [TimeScale τ] in
theorem endsAt_sample
    (hrouters : ∀ server, (routerCpu server c : Action τ (Option Float)).EndsAt fatal) :
    (sample ns c metadata routers command pods number : Action τ Result).EndsAt fatal := by
  have hquiet : ∀ {β : Type} {a : Action τ β}, (a.Asks fun q => ¬ Settles q) → a.EndsAt fatal :=
    fun ha => Action.endsAt_of_only (Action.Only.mono ha hidle)
  have hlast : ∀ result : Result, Action.EndsAt fatal (do
      Action.log .info (sampleLine result)
      return result : Action τ Result) := fun _ =>
    hquiet (Action.asks_bind (Action.asks_log _ _) fun _ => Action.asks_pure _)
  apply Action.endsAt_bind (hquiet (Action.asks_log _ _))
  intro _ _ _
  apply Action.endsAt_bind (endsAt_runAll hruns)
  intro _ outs _
  apply Action.endsAt_bind (hquiet (Action.asks_ofExcept _))
  intro _ metrics _
  apply Action.endsAt_bind (hquiet (Action.asks_ask id))
  intro _ now _
  apply Action.endsAt_bind (hquiet (Action.asks_ofExcept _))
  intro _ result _
  cases routers with
  | none => exact hlast result
  | some server =>
    apply Action.endsAt_bind (hrouters server)
    intro _ cpu _
    exact hlast _

theorem endsAt_samples
    (hrouters : ∀ server, (routerCpu server c : Action τ (Option Float)).EndsAt fatal) :
    (samples ns c metadata routers command pods number left :
      Action τ (List Result)).EndsAt fatal := by
  induction left generalizing number with
  | zero => exact Action.endsAt_of_only (Action.only_pure _)
  | succ left ih =>
    apply Action.endsAt_bind (endsAt_sample hidle hruns hrouters)
    intro _ result _
    have hlast : Action.EndsAt fatal (do
        return result :: (← samples ns c metadata routers command pods (number + 1) left) :
          Action τ (List Result)) := by
      apply Action.endsAt_bind ih
      intro _ later _
      exact Action.endsAt_of_only (Action.only_pure _)
    dsimp only
    split
    · apply Action.endsAt_bind
      · exact Action.endsAt_of_only (Action.Only.mono (Action.asks_sleep _) hidle)
      · intro _ _ _
        exact hlast
    · exact hlast

/-- **What ends a command or a query ends the measurement**, and with the same failure. -/
theorem endsAt_run (hrouters : ∀ server seconds, wholeSeconds c.duration = .ok seconds →
      (routerCpu server c : Action τ (Option Float)).EndsAt fatal)
    (metrics : Option MetricsServer) (podMetrics : Bool) :
    (run ns c metadata metrics podMetrics : Action τ (List Result)).EndsAt fatal := by
  apply Action.endsAt_bind
  · refine Action.endsAt_of_only (Action.Only.mono (Action.asks_attempt
      ((asks_prepare ns c).mono fun q hq hsettles => ?_)) hidle)
    cases q with
    | exec _ | http _ => exact hq
    | _ => exact hsettles
  intro evs outcome hprepare
  obtain ⟨e, he, houtcome⟩ := Action.leaves_attempt.mp hprepare
  cases houtcome
  cases outcome with
  | error x => exact Action.endsAt_of_only (Action.only_throw _)
  | ok prepared =>
    rcases prepare_cases he with ⟨_, hok, hprepares⟩ | ⟨_, hx, -⟩
    · obtain ⟨seconds, hseconds⟩ := hprepares.seconds
      exact endsAt_samples hidle hruns fun server => hrouters server seconds hseconds
    · cases hx

end

omit [TimeScale τ] in
theorem fault?_of_asks (e : Event τ) (h : e.Asks fun q => ∀ call, q ≠ .exec call) :
    fault? e = none := by
  unfold fault?
  split
  · exact absurd rfl (h _)
  · rfl

/-! ### Nothing to combine -/

omit [TimeScale τ] in
theorem column_ne_noOutput (name : String) (outs : List Document) :
    Aggregate.column Aggregate.quantityOf name outs ≠ .error (.benchmark .noOutput) := by
  induction outs with
  | nil => exact nofun
  | cons o rest ih =>
    refine bind_ne_error (bind_ne_error ?_ fun d => ?_) fun x => bind_ne_error ih fun _ => nofun
    · exact fun h => (MetricsServer.explains_lookUp h).elim nofun nofun
    · exact fun h => (MetricsServer.explains_toFloat h).elim nofun nofun

omit [TimeScale τ] in
theorem wholeSeconds_ne_noOutput (x : Float) : wholeSeconds x ≠ .error (.benchmark .noOutput) := by
  intro h
  exact nomatch wholeSeconds_error h

omit [TimeScale τ] in
/-- **There is nothing to combine only when there are no outputs.** -/
theorem ofOutputs_noOutput_iff (outs : List Document) :
    Aggregate.ofOutputs outs = .error (.benchmark .noOutput) ↔ outs = [] := by
  constructor
  · intro h
    apply Classical.byContradiction
    intro hne
    have hempty : outs.isEmpty = false := by simpa using hne
    have hcolumn : ∀ (f : List Float → Float) (name : String),
        (Aggregate.column Aggregate.quantityOf name outs).map f ≠
          .error (.benchmark .noOutput) := fun f name hx =>
      column_ne_noOutput name outs (map_eq_error_iff.mp hx)
    refine absurd h ?_
    unfold Aggregate.ofOutputs Aggregate.measures
    rw [hempty]
    refine bind_ne_error (hcolumn _ _) fun _ => bind_ne_error (wholeSeconds_ne_noOutput _)
      fun _ => ?_
    iterate 6 refine bind_ne_error (hcolumn _ _) fun _ => ?_
    refine bind_ne_error (hcolumn _ _) fun _ => bind_ne_error (wholeSeconds_ne_noOutput _)
      fun _ => ?_
    refine bind_ne_error (hcolumn _ _) fun _ => bind_ne_error (wholeSeconds_ne_noOutput _)
      fun _ => ?_
    exact nofun
  · rintro rfl
    rfl

/-- A failure other than that there was no output. -/
def Grounded (x : Failure) : Prop :=
  x ≠ .benchmark .noOutput

omit [TimeScale τ] in
theorem fails_runAll :
    (runAll ns command pods : Action τ (List Document)).Fails Grounded := by
  induction pods with
  | nil => exact Action.fails_pure _
  | cons pod rest ih =>
    refine Action.fails_bind ?_ fun _ output _ =>
      Action.fails_bind ih fun _ outputs _ => Action.fails_pure _
    rw [runIn_eq]
    refine Action.fails_bind (Action.fails_perform _) fun _ reply _ => ?_
    exact Action.fails_ofExcept fun x hx hnone => heard_ne_noOutput pod reply (hnone ▸ hx)

omit [TimeScale τ] in
theorem fails_ofMetrics (now : Moment) (metadata : ClusterMetadata) (hnumber : 1 ≤ number)
    (m : Metrics) : (Action.ofExcept (Result.ofMetrics now c metadata number m) :
      Action τ Result).Fails Grounded := by
  refine Action.fails_ofExcept fun x hx => ?_
  by_cases hnonneg : m.Nonnegative
  · rw [Result.ofMetrics_ok now c metadata hnumber hnonneg] at hx
    cases hx
  · obtain ⟨issues, hinvalid⟩ := Result.ofMetrics_invalid now c metadata number hnonneg
    rw [hinvalid] at hx
    cases hx
    exact nofun

omit [TimeScale τ] in
theorem fails_routerCpu {seconds : Int} (hseconds : wholeSeconds c.duration = .ok seconds)
    (server : MetricsServer) :
    (routerCpu server c : Action τ (Option Float)).Fails Grounded := by
  intro evs x h hx
  obtain ⟨reply, time, hreply, -⟩ := routerCpu_leaves hseconds h
  have hmisshapen := metered_error hreply.symm
  rw [hx] at hmisshapen
  cases hmisshapen

omit [TimeScale τ] in
/-- A sample that has commands to run does not fail for want of outputs. -/
theorem fails_sample {seconds : Int} (hseconds : wholeSeconds c.duration = .ok seconds)
    (hnumber : 1 ≤ number) (hsize : 0 < pods.length * c.procs) :
    (sample ns c metadata routers command pods number : Action τ Result).Fails Grounded := by
  have hlast : ∀ result : Result, Action.Fails Grounded (do
      Action.log .info (sampleLine result)
      return result : Action τ Result) := fun _ =>
    Action.fails_bind (Action.fails_perform _) fun _ _ _ => Action.fails_pure _
  refine Action.fails_bind (Action.fails_perform _) fun _ _ _ => ?_
  refine Action.fails_bind fails_runAll fun evs outs houts => ?_
  refine Action.fails_bind (Action.fails_ofExcept fun x hx hnone => ?_) fun _ m _ => ?_
  · rcases runAll_leaves houts with ⟨hok, hlength, -⟩ | ⟨_, hx', -⟩
    · cases hok
      rw [hnone] at hx
      rw [(ofOutputs_noOutput_iff _).mp hx, length_targets] at hlength
      exact absurd hlength (Nat.ne_of_lt hsize)
    · cases hx'
  refine Action.fails_bind (Action.fails_perform _) fun _ now _ => ?_
  refine Action.fails_bind (fails_ofMetrics now metadata hnumber m) fun _ result _ => ?_
  cases routers with
  | none => exact hlast result
  | some server =>
    exact Action.fails_bind (fails_routerCpu hseconds server) fun _ cpu _ => hlast _

theorem fails_samples {seconds : Int} (hseconds : wholeSeconds c.duration = .ok seconds)
    (hnumber : 1 ≤ number) (hsize : 0 < pods.length * c.procs) :
    (samples ns c metadata routers command pods number left :
      Action τ (List Result)).Fails Grounded := by
  induction left generalizing number with
  | zero => exact Action.fails_pure _
  | succ left ih =>
    intro evs x h
    rcases samples_cases h with ⟨y, hy, hx⟩ | ⟨result, first, rest, later, -, hlater, hx, -⟩
    · cases hx
      exact fails_sample hseconds hnumber hsize _ _ hy
    · cases later with
      | error y =>
        cases hx
        exact ih (by omega) _ _ hlater
      | ok _ => cases hx

end Load
end IngressBench
