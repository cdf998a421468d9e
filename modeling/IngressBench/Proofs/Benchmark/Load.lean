import IngressBench.Benchmark.Load
import IngressBench.Proofs.Program.Asks

/-!
What measuring asks for: the address of a route, the pods of the clients, the commands inside them,
the metrics server and the time. Measuring changes nothing in the cluster (`Load.asks_run`).
-/
namespace IngressBench

/-- A question that is asked to measure a test case. -/
def Question.Gauges : Question → Prop
  | .api (.readRoute ..) | .api (.listPods ..) => True
  | .exec _ | .http _ | .stamp => True
  | _ => False

/-- A question about the route and the pods of a test case. -/
def Question.Locates : Question → Prop
  | .api (.readRoute ..) | .api (.listPods ..) => True
  | _ => False

/-- A question that is asked to measure a sample. -/
def Question.Probes : Question → Prop
  | .exec _ | .http _ | .stamp => True
  | _ => False

theorem Question.gauges_of_locates (q : Question) (h : q.Locates) : q.Gauges := by
  unfold Locates at h
  split at h
  · trivial
  · trivial
  · exact h.elim

theorem Question.gauges_of_probes (q : Question) (h : q.Probes) : q.Gauges := by
  unfold Probes at h
  split at h
  · trivial
  · trivial
  · trivial
  · exact h.elim

variable {τ : Type} [TimeScale τ]

omit [TimeScale τ] in
theorem MetricsServer.asks_queryScalar {P : Question → Prop} (hP : ∀ call, P (.http call))
    (server : MetricsServer) (expr : String) (time : Option Document) :
    (server.queryScalar expr time : Action τ (Option Float)).Asks P := by
  refine Action.asks_bind ?_ fun _ => Action.asks_ofExcept _
  refine Action.asks_bind (Action.asks_ask (hP _)) fun answer => ?_
  cases answer with
  | ok _ => exact Action.asks_ofExcept _
  | error _ => exact Action.asks_throw _

namespace Load

omit [TimeScale τ] in
theorem asks_prepare (ns : String) (c : TestCase) :
    (prepare ns c : Action τ (List String × List (Option String))).Asks Question.Locates := by
  have hurl : (url ns c : Action τ String).Asks Question.Locates := by
    refine Action.asks_bind (Action.asks_apiOrFail trivial) fun _ => ?_
    exact Action.asks_bind (Action.asks_ofExcept _) fun _ => Action.asks_pure _
  have hpods : (clientPods ns c.concurrency : Action τ (List (Option String))).Asks
      Question.Locates := by
    refine Action.asks_bind (Action.asks_apiOrFail trivial) fun _ => ?_
    refine Action.asks_bind (Action.asks_ofExcept _) fun _ => ?_
    split
    · exact Action.asks_bind (Action.asks_throw _) fun _ => Action.asks_pure _
    · exact Action.asks_pure _
  refine Action.asks_bind hurl fun _ => Action.asks_bind (Action.asks_ofExcept _) fun _ => ?_
  exact Action.asks_bind hpods fun _ => Action.asks_pure _

omit [TimeScale τ] in
theorem asks_runIn {P : Question → Prop} (hP : ∀ call, P (.exec call)) (ns : String)
    (command : List String) (pod : Option String) :
    (runIn ns command pod : Action τ Document).Asks P := by
  refine Action.asks_bind (Action.asks_ask (hP _)) fun answer => ?_
  cases answer with
  | ok _ => exact Action.asks_ofExcept _
  | error fault =>
    cases fault with
    | rejected _ _ => exact Action.asks_throw _
    | unreachable _ => exact Action.asks_throw _

omit [TimeScale τ] in
theorem asks_runAll {P : Question → Prop} (hP : ∀ call, P (.exec call)) (ns : String)
    (command : List String) (pods : List (Option String)) :
    (runAll ns command pods : Action τ (List Document)).Asks P := by
  induction pods with
  | nil => exact Action.asks_pure _
  | cons pod rest ih =>
    refine Action.asks_bind (asks_runIn hP ns command pod) fun _ => ?_
    exact Action.asks_bind ih fun _ => Action.asks_pure _

omit [TimeScale τ] in
theorem asks_routerCpu {P : Question → Prop} (hP : ∀ call, P (.http call))
    (server : MetricsServer) (c : TestCase) :
    (routerCpu server c : Action τ (Option Float)).Asks P := by
  refine Action.asks_bind (Action.asks_attempt ?_) fun outcome => ?_
  · exact Action.asks_bind (Action.asks_ofExcept _) fun _ => MetricsServer.asks_queryScalar hP server _ _
  · cases outcome with
    | ok _ => exact Action.asks_pure _
    | error failure =>
      dsimp only
      split
      · exact Action.asks_bind (Action.asks_throw _) fun _ =>
          Action.asks_bind (Action.asks_log _ _) fun _ => Action.asks_pure _
      · exact Action.asks_bind (Action.asks_log _ _) fun _ => Action.asks_pure _

omit [TimeScale τ] in
theorem asks_sample (ns : String) (c : TestCase) (metadata : ClusterMetadata) (routers : Routers)
    (command : List String) (pods : List (Option String)) (number : Nat) :
    (sample ns c metadata routers command pods number : Action τ Result).Asks Question.Probes := by
  refine Action.asks_bind (Action.asks_log _ _) fun _ => ?_
  refine Action.asks_bind (asks_runAll (fun _ => trivial) ns command _) fun _ => ?_
  refine Action.asks_bind (Action.asks_ofExcept _) fun _ => ?_
  refine Action.asks_bind (Action.asks_ask trivial) fun _ => ?_
  refine Action.asks_bind (Action.asks_ofExcept _) fun result => ?_
  have hlast : ∀ result : Result, (do
      Action.log .info (sampleLine result)
      return result : Action τ Result).Asks Question.Probes := fun _ =>
    Action.asks_bind (Action.asks_log _ _) fun _ => Action.asks_pure _
  cases routers with
  | some server =>
    refine Action.asks_bind (asks_routerCpu (fun _ => trivial) server c) fun _ => ?_
    exact Action.asks_bind (Action.asks_pure _) fun result => hlast result
  | none => exact Action.asks_bind (Action.asks_pure _) fun result => hlast result

theorem asks_samples (ns : String) (c : TestCase) (metadata : ClusterMetadata) (routers : Routers)
    (command : List String) (pods : List (Option String)) (number left : Nat) :
    (samples ns c metadata routers command pods number left : Action τ (List Result)).Asks
      Question.Probes := by
  induction left generalizing number with
  | zero => exact Action.asks_pure _
  | succ left ih =>
    refine Action.asks_bind (asks_sample ns c metadata routers command pods number) fun _ => ?_
    have hrest : ∀ (r : Result) (u : Unit), (do
        return r :: (← samples ns c metadata routers command pods (number + 1) left) :
          Action τ (List Result)).Asks Question.Probes := fun _ _ =>
      Action.asks_bind (ih _) fun _ => Action.asks_pure _
    dsimp only
    split
    · exact Action.asks_bind (Action.asks_sleep _) fun u => hrest _ u
    · exact hrest _ ()

/-- **Measuring changes nothing in the cluster.** -/
theorem asks_run (ns : String) (c : TestCase) (metadata : ClusterMetadata)
    (metrics : Option MetricsServer) (podMetrics : Bool) :
    (run ns c metadata metrics podMetrics : Action τ (List Result)).Asks Question.Gauges := by
  refine Action.asks_bind (Action.asks_attempt
    ((asks_prepare ns c).mono Question.gauges_of_locates)) fun outcome => ?_
  cases outcome with
  | error _ => exact Action.asks_throw _
  | ok prepared =>
    exact (asks_samples ns c metadata _ prepared.1 prepared.2 1 c.samples).mono
      Question.gauges_of_probes

end Load
end IngressBench
