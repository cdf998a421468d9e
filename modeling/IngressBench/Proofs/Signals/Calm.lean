import IngressBench.Deploy
import IngressBench.Proofs.Cluster.Discovery
import IngressBench.Proofs.Signals.Heeds

/-!
Steps that are calm: they pause nowhere, ask no helper, and fail with no signal. Learning about the
cluster, creating the objects of a benchmark, measuring a test case and writing files are such steps,
so nothing that they are answered can end a run with a signal.
-/
namespace IngressBench

variable {τ : Type}

/-! ### Learning -/

namespace Discovery

theorem calm_metadataCall (call : ApiCall) : (metadataCall call : Action τ call.Reply).Calm := by
  refine Action.calm_ask_bind (fun _ => rfl) fun answer => ?_
  cases answer with
  | ok _ => exact Action.calm_pure _
  | error fault =>
    refine Action.calm_throw ?_
    cases fault <;> rfl

theorem calm_clusterObject (plural name : String) :
    (clusterObject plural name : Action τ Document).Calm := by
  refine Action.calm_ask_bind (fun _ => rfl) fun answer => ?_
  cases answer with
  | ok _ => exact Action.calm_pure _
  | error fault =>
    dsimp only
    split
    · exact Action.calm_pure _
    · exact Action.calm_throw rfl

theorem calm_versionAndNodes : (versionAndNodes : Action τ ClusterMetadata).Calm := by
  refine Action.calm_bind (calm_metadataCall _) fun version => ?_
  refine Action.calm_bind (calm_metadataCall _) fun nodes => ?_
  refine Action.calm_ofExcept (plain_bind (plain_present _ _) fun version => ?_)
  refine plain_bind (plain_present _ _) fun nodes => ?_
  have hrest : ∀ items : List ClusterNode, Plain (do
      let m ← ClusterMetadata.ofFields
        [("k8s_version", version), ("total_nodes", .int items.length)]
      let count := countNodes (← items.mapM labelsOf)
      return { m with
        masterNodes := count.masters, workerNodes := count.workers
        infraNodes := count.infra }) := fun items =>
    plain_bind (ClusterMetadata.plain_ofFields _) fun m =>
      plain_bind (plain_mapM plain_labelsOf items) fun _ => plain_ok _
  split
  · exact plain_bind (plain_ok _) hrest
  · exact plain_bind (plain_error rfl) hrest

theorem calm_withIdentity (m : ClusterMetadata) :
    (withIdentity m : Action τ ClusterMetadata).Calm := by
  refine Action.calm_bind (calm_clusterObject _ _) fun object => ?_
  split
  · exact Action.calm_bind (Action.calm_ofExcept (plain_infrastructure object)) fun _ =>
      Action.calm_pure _
  · exact Action.calm_pure _

theorem calm_metadata : (metadata : Action τ ClusterMetadata).Calm := by
  rw [metadata_eq]
  refine Action.calm_bind calm_versionAndNodes fun m => ?_
  refine Action.calm_bind (calm_clusterObject _ _) fun version => ?_
  split
  · refine Action.calm_bind (Action.calm_ofExcept (plain_distributionVersion version)) fun _ => ?_
    exact Action.calm_bind (Action.calm_pure _) calm_withIdentity
  · exact Action.calm_bind (Action.calm_pure _) calm_withIdentity

theorem calm_metricsUrl : (metricsUrl : Action τ String).Calm := by
  refine Action.calm_ask_bind (fun _ => rfl) fun answer => ?_
  cases answer with
  | ok route =>
    exact Action.calm_bind (Action.calm_ofExcept (plain_hostOf route)) fun _ => Action.calm_pure _
  | error _ => exact Action.calm_throw rfl

theorem calm_metricsServer (session : Session) (settings : Settings) :
    (metricsServer session settings : Action τ MetricsServer).Calm := by
  unfold metricsServer
  split
  · refine Action.calm_bind (Action.calm_pure _) fun _ => ?_
    exact Action.calm_bind (Action.calm_log _ _) fun _ => Action.calm_pure _
  · refine Action.calm_bind calm_metricsUrl fun _ => ?_
    exact Action.calm_bind (Action.calm_log _ _) fun _ => Action.calm_pure _

theorem calm_loadBalancerVersion : (loadBalancerVersion : Action τ String).Calm := by
  refine Action.calm_bind (Action.calm_apiOrFail _) fun pods => ?_
  refine Action.calm_bind (Action.calm_ofExcept (plain_routerPod pods)) fun pod => ?_
  refine Action.calm_ask_bind (fun _ => rfl) fun answer => ?_
  cases answer with
  | ok output => exact Action.calm_ofExcept (plain_versionOf output)
  | error fault => exact Action.calm_throw (Action.failure_plain fault)

end Discovery

/-! ### Creating -/

theorem calm_create (object : Manifest) : (create object : Action τ Bool).Calm := by
  refine Action.calm_ask_bind (fun _ => rfl) fun answer => ?_
  cases answer with
  | ok _ => exact Action.calm_pure _
  | error fault =>
    dsimp only
    split
    · exact Action.calm_pure _
    · exact Action.calm_throw (Action.failure_plain fault)

theorem calm_createAll (objects : List Manifest) : (createAll objects : Action τ Unit).Calm := by
  induction objects with
  | nil => exact Action.calm_pure _
  | cons object rest ih => exact Action.calm_bind (calm_create object) fun _ => ih

theorem calm_deploy (ns : String) : (deploy ns : Action τ Bool).Calm := by
  refine Action.calm_bind (Action.calm_log _ _) fun _ => ?_
  refine Action.calm_bind (calm_create _) fun existed => ?_
  have hrest : ∀ u : Unit,
      (do createAll (Assets.inside ns); return existed : Action τ Bool).Calm := fun _ =>
    Action.calm_bind (calm_createAll _) fun _ => Action.calm_pure _
  cases existed with
  | true => exact Action.calm_bind (Action.calm_log _ _) hrest
  | false => exact hrest ()

/-! ### Measuring -/

theorem MetricsServer.calm_queryScalar (server : MetricsServer) (expr : String)
    (time : Option Document) :
    (server.queryScalar expr time : Action τ (Option Float)).Calm := by
  refine Action.calm_bind ?_ fun result => Action.calm_ofExcept (plain_scalarOf result)
  refine Action.calm_ask_bind (fun _ => rfl) fun answer => ?_
  cases answer with
  | ok answer => exact Action.calm_ofExcept (plain_read _ answer)
  | error _ => exact Action.calm_throw rfl

namespace Load

theorem calm_url (ns : String) (c : TestCase) : (url ns c : Action τ String).Calm := by
  refine Action.calm_bind (Action.calm_apiOrFail _) fun route => ?_
  exact Action.calm_bind (Action.calm_ofExcept (Discovery.plain_hostOf route)) fun _ =>
    Action.calm_pure _

theorem calm_clientPods (ns : String) (expected : Nat) :
    (clientPods ns expected : Action τ (List (Option String))).Calm := by
  refine Action.calm_bind (Action.calm_apiOrFail _) fun pods => ?_
  refine Action.calm_bind (Action.calm_ofExcept ?_) fun names => ?_
  · exact plain_bind (Listing.plain_all pods) fun items => plain_mapM plain_podName items
  · split
    · exact Action.calm_bind (Action.calm_throw rfl) fun _ => Action.calm_pure _
    · exact Action.calm_pure _

theorem calm_prepare (ns : String) (c : TestCase) :
    (prepare ns c : Action τ (List String × List (Option String))).Calm := by
  refine Action.calm_bind (calm_url ns c) fun address => ?_
  refine Action.calm_bind (Action.calm_ofExcept (c.plain_command address)) fun command => ?_
  exact Action.calm_bind (calm_clientPods ns _) fun _ => Action.calm_pure _

theorem calm_runIn (ns : String) (command : List String) (pod : Option String) :
    (runIn ns command pod : Action τ Document).Calm := by
  refine Action.calm_ask_bind (fun _ => rfl) fun answer => ?_
  cases answer with
  | ok output => exact Action.calm_ofExcept (plain_outputOf pod output)
  | error fault =>
    cases fault with
    | rejected _ _ => exact Action.calm_throw rfl
    | unreachable _ => exact Action.calm_throw rfl

theorem calm_runAll (ns : String) (command : List String) (pods : List (Option String)) :
    (runAll ns command pods : Action τ (List Document)).Calm := by
  induction pods with
  | nil => exact Action.calm_pure _
  | cons pod rest ih =>
    refine Action.calm_bind (calm_runIn ns command pod) fun _ => ?_
    exact Action.calm_bind ih fun _ => Action.calm_pure _

theorem calm_routerCpu (server : MetricsServer) (c : TestCase) :
    (routerCpu server c : Action τ (Option Float)).Calm := by
  refine Action.calm_attempt_bind ?_ fun e he => ?_
  · exact Action.calm_bind (Action.calm_ofExcept (plain_wholeSeconds _)) fun _ =>
      server.calm_queryScalar _ _
  · cases e with
    | ok _ => exact Action.calm_pure _
    | error x =>
      dsimp only
      split
      · exact Action.calm_bind (Action.calm_throw (he x rfl)) fun _ =>
          Action.calm_bind (Action.calm_log _ _) fun _ => Action.calm_pure _
      · exact Action.calm_bind (Action.calm_log _ _) fun _ => Action.calm_pure _

theorem calm_sample (ns : String) (c : TestCase) (metadata : ClusterMetadata) (routers : Routers)
    (command : List String) (pods : List (Option String)) (number : Nat) :
    (sample ns c metadata routers command pods number : Action τ Result).Calm := by
  refine Action.calm_bind (Action.calm_log _ _) fun _ => ?_
  refine Action.calm_bind (calm_runAll ns command _) fun outputs => ?_
  refine Action.calm_bind (Action.calm_ofExcept (Aggregate.plain_ofOutputs outputs)) fun _ => ?_
  refine Action.calm_ask_bind (fun _ => rfl) fun now => ?_
  refine Action.calm_bind (Action.calm_ofExcept (Result.plain_ofMetrics _ _ _ _ _)) fun result => ?_
  have hlast : ∀ result : Result, (do
      Action.log .info (sampleLine result)
      return result : Action τ Result).Calm := fun _ =>
    Action.calm_bind (Action.calm_log _ _) fun _ => Action.calm_pure _
  cases routers with
  | some server =>
    refine Action.calm_bind (calm_routerCpu server c) fun _ => ?_
    exact Action.calm_bind (Action.calm_pure _) hlast
  | none => exact Action.calm_bind (Action.calm_pure _) hlast

variable [TimeScale τ]

theorem calm_samples (ns : String) (c : TestCase) (metadata : ClusterMetadata) (routers : Routers)
    (command : List String) (pods : List (Option String)) (number left : Nat) :
    (samples ns c metadata routers command pods number left : Action τ (List Result)).Calm := by
  induction left generalizing number with
  | zero => exact Action.calm_pure _
  | succ left ih =>
    refine Action.calm_bind (calm_sample ns c metadata routers command pods number) fun result => ?_
    have hrest : ∀ u : Unit, (do
        return result :: (← samples ns c metadata routers command pods (number + 1) left) :
          Action τ (List Result)).Calm := fun _ =>
      Action.calm_bind (ih _) fun _ => Action.calm_pure _
    dsimp only
    split
    · exact Action.calm_bind (Action.calm_sleep _) hrest
    · exact hrest ()

/-- **A measurement is calm.** -/
theorem calm_run (ns : String) (c : TestCase) (metadata : ClusterMetadata)
    (metrics : Option MetricsServer) (podMetrics : Bool) :
    (run ns c metadata metrics podMetrics : Action τ (List Result)).Calm := by
  refine Action.calm_attempt_bind (calm_prepare ns c) fun e he => ?_
  cases e with
  | ok prepared => exact calm_samples ns c metadata _ prepared.1 prepared.2 1 c.samples
  | error x =>
    refine Action.calm_throw ?_
    have hkind : (preparationFailure x).isSignal = x.isSignal := by cases x <;> rfl
    exact hkind.trans (he x rfl)

end Load

/-! ### Writing -/

namespace Directory

theorem writeFailure_plain (path : String) (e : FileError) :
    (writeFailure path e).isSignal = false := by
  unfold writeFailure FileError.rescue
  split
  · rfl
  · rfl

theorem calm_write (directory name : String) (documents : Document) :
    (write directory name documents : Action τ Unit).Calm := by
  unfold write
  obtain ⟨text, flaw⟩ := Json.pages documents
  refine Action.calm_ask_bind (fun _ => rfl) fun written => ?_
  cases written with
  | error e => exact Action.calm_throw (writeFailure_plain _ e)
  | ok _ =>
    cases flaw with
    | some flaw =>
      refine Action.calm_throw ?_
      cases flaw <;> rfl
    | none =>
      refine Action.calm_ask_bind (fun _ => rfl) fun renamed => ?_
      cases renamed with
      | error e => exact Action.calm_throw (writeFailure_plain _ e)
      | ok _ => exact Action.calm_pure _

theorem calm_store (directory : String) (label : Option String) (documents : Document) :
    (store directory label documents : Action τ String).Calm := by
  unfold store
  extract_lets name proceed
  split
  · exact Action.calm_throw rfl
  · refine Action.calm_bind (calm_write directory _ documents) fun _ => ?_
    exact Action.calm_bind (Action.calm_ofExcept documents.plain_size) fun _ => Action.calm_pure _

end Directory
end IngressBench
