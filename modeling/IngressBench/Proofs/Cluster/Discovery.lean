import IngressBench.Cluster.Discovery
import IngressBench.Proofs.Program.Standing

/-!
What learning about a cluster asks for. It reads, and the one command that it runs in a router only
tells a version; a fault of a reading ends the run, a fault of that command does not.
-/
namespace IngressBench

variable {τ : Type}

/-- A question about the cluster that a run asks before it deploys anything. -/
def Question.Learns : Question → Prop
  | .access _ | .connect _ | .file (.exists_ _) | .exec _ => True
  | .api .version | .api .listNodes | .api (.readConfig ..) | .api (.readRoute ..) => True
  | .api (.listPods ..) => True
  | _ => False

/-! ### Access -/

namespace Session

section
variable {P : Event τ → Prop} (hlog : ∀ level text, P (.logged level text))
  (hP : ∀ q : Question, q.Learns → ∀ r time, P (.asked q r time))

include hP

theorem only_keysOf (access : Access) : (keysOf access : Action τ Keys).Only P := by
  refine Action.only_bind (Action.only_ask (hP _ trivial)) fun answer => ?_
  cases answer with
  | ok _ => exact Action.only_pure _
  | error failure => cases failure <;> exact Action.only_throw _

theorem only_configFile (env : Environment) (settings : Settings) :
    (configFile env settings : Action τ (Option String)).Only P := by
  unfold configFile
  split
  · exact Action.only_pure _
  · split
    · exact Action.only_pure _
    · exact Action.only_bind (Action.only_ask (hP _ trivial)) fun found => Action.only_pure _

include hlog

/-- A connection of the run's own leaves what it asks, and lines of the log. -/
theorem only_connect (env : Environment) (settings : Settings) :
    (connect env settings : Action τ Session).Only P := by
  refine Action.only_bind (only_configFile hP env settings) fun path => ?_
  cases path with
  | some path =>
    refine Action.only_bind (only_keysOf hP _) fun _ => ?_
    exact Action.only_bind (Action.only_log (hlog _ _)) fun _ => Action.only_pure _
  | none =>
    refine Action.only_bind (only_keysOf hP _) fun _ => ?_
    exact Action.only_bind (Action.only_log (hlog _ _)) fun _ => Action.only_pure _

end

theorem asks_connect (env : Environment) (settings : Settings) :
    (connect env settings : Action τ Session).Asks Question.Learns :=
  only_connect (fun _ _ => trivial) (fun _ h _ _ => h) env settings

theorem guards_keysOf (access : Access) :
    (keysOf access : Action τ Keys).Guards .free Standing.free.Well := by
  refine Action.guards_ask_bind (fun _ => rfl) fun answer => ?_
  cases answer with
  | ok _ => exact Action.guards_pure (Standing.free.well_ok _)
  | error failure => cases failure <;> exact Action.guards_throw (Standing.free.well_error _ _)

theorem guards_configFile (env : Environment) (settings : Settings) :
    (configFile env settings : Action τ (Option String)).Guards .free Standing.free.Well := by
  unfold configFile
  split
  · exact Action.guards_pure (Standing.free.well_ok _)
  · split
    · exact Action.guards_pure (Standing.free.well_ok _)
    · refine Action.guards_ask_bind (fun _ => rfl) fun found => ?_
      exact Action.guards_pure (Standing.free.well_ok _)

theorem guards_connect (env : Environment) (settings : Settings) :
    (connect env settings : Action τ Session).Guards .free Standing.free.Well := by
  refine Action.guards_then (guards_configFile env settings) fun path => ?_
  cases path with
  | some path =>
    refine Action.guards_then (guards_keysOf _) fun _ => ?_
    exact Action.guards_log_bind (Action.guards_pure (Standing.free.well_ok _))
  | none =>
    refine Action.guards_then (guards_keysOf _) fun _ => ?_
    exact Action.guards_log_bind (Action.guards_pure (Standing.free.well_ok _))

end Session

/-! ### Identity -/

namespace Discovery

theorem asks_metadataCall {call : ApiCall} (h : (Question.api call).Learns) :
    (metadataCall call : Action τ call.Reply).Asks Question.Learns := by
  refine Action.asks_bind (Action.asks_ask h) fun answer => ?_
  cases answer with
  | ok _ => exact Action.asks_pure _
  | error _ => exact Action.asks_throw _

theorem asks_clusterObject (plural name : String) :
    (clusterObject plural name : Action τ Document).Asks Question.Learns := by
  refine Action.asks_bind (Action.asks_ask trivial) fun answer => ?_
  cases answer with
  | ok _ => exact Action.asks_pure _
  | error fault =>
    dsimp only
    split
    · exact Action.asks_pure _
    · exact Action.asks_throw _

theorem asks_versionAndNodes :
    (versionAndNodes : Action τ ClusterMetadata).Asks Question.Learns := by
  refine Action.asks_bind (asks_metadataCall trivial) fun _ => ?_
  refine Action.asks_bind (asks_metadataCall trivial) fun _ => ?_
  exact Action.asks_ofExcept _

/-- Adds the name and the platform of the cluster, if it tells them. -/
def withIdentity (m : ClusterMetadata) : Action τ ClusterMetadata := do
  let object ← clusterObject "infrastructures" "cluster"
  if object.truthy then
    let (clusterName, platform) ← Action.ofExcept (infrastructure object)
    return { m with clusterName, platform }
  else return m

theorem metadata_eq : (metadata : Action τ ClusterMetadata) = (do
    let m ← versionAndNodes
    let version ← clusterObject "clusterversions" "version"
    let m ← if version.truthy then do
        pure { m with ocpVersion := ← Action.ofExcept (distributionVersion version) }
      else pure m
    withIdentity m) := rfl

theorem asks_withIdentity (m : ClusterMetadata) :
    (withIdentity m : Action τ ClusterMetadata).Asks Question.Learns := by
  refine Action.asks_bind (asks_clusterObject _ _) fun object => ?_
  split
  · exact Action.asks_bind (Action.asks_ofExcept _) fun _ => Action.asks_pure _
  · exact Action.asks_pure _

theorem asks_metadata : (metadata : Action τ ClusterMetadata).Asks Question.Learns := by
  rw [metadata_eq]
  refine Action.asks_bind asks_versionAndNodes fun m => ?_
  refine Action.asks_bind (asks_clusterObject _ _) fun version => ?_
  split
  · refine Action.asks_bind (Action.asks_ofExcept _) fun _ => ?_
    exact Action.asks_bind (Action.asks_pure _) asks_withIdentity
  · exact Action.asks_bind (Action.asks_pure _) asks_withIdentity

theorem asks_metricsUrl : (metricsUrl : Action τ String).Asks Question.Learns := by
  refine Action.asks_bind (Action.asks_ask trivial) fun answer => ?_
  cases answer with
  | ok _ => exact Action.asks_bind (Action.asks_ofExcept _) fun _ => Action.asks_pure _
  | error _ => exact Action.asks_throw _

theorem asks_metricsServer (session : Session) (settings : Settings) :
    (metricsServer session settings : Action τ MetricsServer).Asks Question.Learns := by
  unfold metricsServer
  split
  · refine Action.asks_bind (Action.asks_pure _) fun _ => ?_
    exact Action.asks_bind (Action.asks_log _ _) fun _ => Action.asks_pure _
  · refine Action.asks_bind asks_metricsUrl fun _ => ?_
    exact Action.asks_bind (Action.asks_log _ _) fun _ => Action.asks_pure _

theorem asks_loadBalancerVersion :
    (loadBalancerVersion : Action τ String).Asks Question.Learns := by
  refine Action.asks_bind (Action.asks_apiOrFail trivial) fun _ => ?_
  refine Action.asks_bind (Action.asks_ofExcept _) fun _ => ?_
  refine Action.asks_bind (Action.asks_ask trivial) fun answer => ?_
  cases answer with
  | ok _ => exact Action.asks_ofExcept _
  | error _ => exact Action.asks_throw _

/-! ### Where it leads -/

theorem guards_metadataCall {call : ApiCall} (hq : (Question.api call).isEffect = false)
    (hok : ∀ v : call.Reply, Standing.free.replied (.api call) (.ok v) = .free) :
    (metadataCall call : Action τ call.Reply).Guards .free Standing.free.Well := by
  refine Action.guards_ask_bind (fun h => absurd h (by rw [hq]; decide)) fun answer => ?_
  cases answer with
  | ok v => exact Action.guards_pure fun _ _ => hok v
  | error _ => exact Action.guards_throw (Standing.free.well_error _ _)

/-- A cluster without the object goes on; any other fault ends the run. -/
theorem guards_clusterObject (plural name : String) :
    (clusterObject plural name : Action τ Document).Guards .free Standing.free.Well := by
  refine Action.guards_ask_bind (fun _ => rfl) fun answer => ?_
  cases answer with
  | ok _ => exact Action.guards_pure (Standing.free.well_ok _)
  | error fault =>
    dsimp only
    split
    · rename_i hstatus
      have hfree :
          Standing.free.replied (.api (.readConfig plural name)) (.error fault) = .free := by
        refine Standing.replied_free (q := .api (.readConfig plural name)) ?_ rfl
        show (!fault.hasStatus ApiFault.notFound) = false
        rw [hstatus]
        rfl
      rw [hfree]
      exact Action.guards_pure (Standing.free.well_ok _)
    · exact Action.guards_throw (Standing.free.well_error _ _)

theorem guards_versionAndNodes :
    (versionAndNodes : Action τ ClusterMetadata).Guards .free Standing.free.Well := by
  refine Action.guards_then (guards_metadataCall rfl fun _ => rfl) fun _ => ?_
  refine Action.guards_then (guards_metadataCall rfl fun _ => rfl) fun _ => ?_
  exact Action.guards_ofExcept fun _ _ => rfl

theorem guards_withIdentity (m : ClusterMetadata) :
    (withIdentity m : Action τ ClusterMetadata).Guards .free Standing.free.Well := by
  refine Action.guards_then (guards_clusterObject _ _) fun object => ?_
  split
  · exact Action.guards_ofExcept_bind (fun _ _ => Standing.free.well_error _ _) fun _ _ =>
      Action.guards_pure (Standing.free.well_ok _)
  · exact Action.guards_pure (Standing.free.well_ok _)

theorem guards_metadata :
    (metadata : Action τ ClusterMetadata).Guards .free Standing.free.Well := by
  rw [metadata_eq]
  refine Action.guards_then guards_versionAndNodes fun m => ?_
  refine Action.guards_then (guards_clusterObject _ _) fun version => ?_
  split
  · refine Action.guards_ofExcept_bind (fun _ _ => Standing.free.well_error _ _) fun _ _ => ?_
    exact Action.guards_then (Action.guards_pure (Standing.free.well_ok _)) guards_withIdentity
  · exact Action.guards_then (Action.guards_pure (Standing.free.well_ok _)) guards_withIdentity

theorem guards_metricsUrl : (metricsUrl : Action τ String).Guards .free Standing.free.Well := by
  refine Action.guards_ask_bind (fun _ => rfl) fun answer => ?_
  cases answer with
  | ok _ =>
    exact Action.guards_ofExcept_bind (fun _ _ => Standing.free.well_error _ _) fun _ _ =>
      Action.guards_pure (Standing.free.well_ok _)
  | error _ => exact Action.guards_throw (Standing.free.well_error _ _)

theorem guards_metricsServer (session : Session) (settings : Settings) :
    (metricsServer session settings : Action τ MetricsServer).Guards .free Standing.free.Well := by
  unfold metricsServer
  split
  · refine Action.guards_then (Action.guards_pure (Standing.free.well_ok _)) fun _ => ?_
    exact Action.guards_log_bind (Action.guards_pure (Standing.free.well_ok _))
  · refine Action.guards_then guards_metricsUrl fun _ => ?_
    exact Action.guards_log_bind (Action.guards_pure (Standing.free.well_ok _))

/-- **The version of the load balancer ends no run**, whatever a router answers. -/
theorem guards_loadBalancerVersion :
    (loadBalancerVersion : Action τ String).Guards .free fun _ t => t = .free := by
  refine Action.guards_apiOrFail_bind (fun _ => rfl) (fun _ => rfl) fun _ => ?_
  refine Action.guards_ofExcept_bind (fun _ _ => rfl) fun _ _ => ?_
  refine Action.guards_ask_bind (fun _ => rfl) fun answer => ?_
  cases answer with
  | ok _ => exact Action.guards_ofExcept rfl
  | error _ => exact Action.guards_throw rfl

end Discovery
end IngressBench
