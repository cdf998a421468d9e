import IngressBench.Cluster.Role
import IngressBench.Metrics.Server
import IngressBench.Readiness.Check
import IngressBench.Session

/-!
What a run learns about its cluster before it starts: the cluster's identity, the metrics server, and
the version of the load balancer.
-/
namespace IngressBench.Discovery

variable {τ : Type}

/-! ### Identity -/

/-- The failure of a call for the versions or the nodes. -/
def metadataFailure : ApiFault → Failure
  | .rejected _ reason => .connectivity (.metadata reason)
  | .unreachable text => .connectivity (.unreachable text)

/-- What a fault tells in the sentence about a part of the cluster. -/
def faultText : ApiFault → String
  | .rejected _ reason => reasonText reason
  | .unreachable text => text

/-- A call for the versions or the nodes. -/
def metadataCall (call : ApiCall) : Action τ call.Reply := do
  match ← Action.api call with
  | .ok reply => return reply
  | .error fault => throw (metadataFailure fault)

/-- An object of the cluster's own configuration; a cluster of another distribution has none. -/
def clusterObject (plural name : String) : Action τ Document := do
  match ← Action.api (.readConfig plural name) with
  | .ok d => return d
  | .error fault =>
    if fault.hasStatus ApiFault.notFound then return .null
    else throw (.connectivity (.clusterObject plural name (faultText fault)))

/-- The labels of a node. -/
def labelsOf (node : ClusterNode) : Except Failure Labels := do
  return (← present "labels" node.metadata).labels.getD []

/-- The mapping under a name of a mapping; without the name, an empty one. -/
def inner (d : Document) (name : String) : Except Failure Document := do
  return (← d.lookUp name).getD (.map [])

/-- The value under a name of a mapping, nothing without the name. -/
def valueOf (d : Document) (name : String) : Except Failure Document := do
  return (← d.lookUp name).getD .null

/-- The version of the distribution. -/
def distributionVersion (d : Document) : Except Failure Document := do
  valueOf (← inner (← inner d "status") "desired") "version"

/-- The platform of the cluster. -/
def platformOf (status : Document) : Except Failure Document := do
  let type ← valueOf (← inner status "platformStatus") "type"
  if type.truthy then return type else valueOf status "platform"

/-- The name and the platform of the cluster. -/
def infrastructure (d : Document) : Except Failure (Document × Document) := do
  let status ← inner d "status"
  return (← valueOf status "infrastructureName", ← platformOf status)

/-- The versions and the count of nodes. -/
def versionAndNodes : Action τ ClusterMetadata := do
  let version ← metadataCall .version
  let nodes ← metadataCall .listNodes
  Action.ofExcept do
    let version ← present "git_version" version
    let items ← match (← present "items" nodes).items with
      | some items => pure items
      | none => throw (.kind "object of type 'NoneType' has no len()")
    let m ← ClusterMetadata.ofFields
      [("k8s_version", version), ("total_nodes", .int items.length)]
    let count := countNodes (← items.mapM labelsOf)
    return { m with
      masterNodes := count.masters, workerNodes := count.workers, infraNodes := count.infra }

/-- The identity of the cluster. -/
def metadata : Action τ ClusterMetadata := do
  let m ← versionAndNodes
  let version ← clusterObject "clusterversions" "version"
  let m ← if version.truthy then do
      pure { m with ocpVersion := ← Action.ofExcept (distributionVersion version) }
    else pure m
  let object ← clusterObject "infrastructures" "cluster"
  if object.truthy then
    let (clusterName, platform) ← Action.ofExcept (infrastructure object)
    return { m with clusterName, platform }
  else return m

/-! ### Metrics server -/

def monitoringNamespace : String := "openshift-monitoring"

def metricsRoute : String := "prometheus-k8s"

/-- The host of a route. -/
def hostOf (route : Document) : Except Failure Document := do
  (← route.under "spec").under "host"

/-- The address of the cluster's own metrics server. -/
def metricsUrl : Action τ String := do
  match ← Action.api (.readRoute monitoringNamespace metricsRoute) with
  | .ok route => do
    let host ← Action.ofExcept (hostOf route)
    return "https://" ++ host.plain
  | .error fault => throw (.connectivity (.metricsRoute (faultText fault)))

/-- The metrics server: that of the settings, or the cluster's own. -/
def metricsServer (session : Session) (settings : Settings) : Action τ MetricsServer := do
  let url ← match Session.filled? settings.metricsUrl with
    | some url => pure url
    | none => metricsUrl
  let token := (Session.filled? settings.metricsToken).or session.bearerToken
  Action.log .info s!"Using Prometheus at {url}"
  return MetricsServer.ofUrl url token

/-! ### Load balancer -/

def routerSelector : String :=
  "ingresscontroller.operator.openshift.io/deployment-ingresscontroller=default"

/-- The small letter of a letter, for the letters of the word `version`. -/
def smallLetter (c : Char) : Char :=
  if c = 'İ' ∨ c = 'ı' then 'i' else if c = 'ſ' then 's' else c.toLower

/-- Whether a text starts with a word in any case, and what stands behind it. -/
def behindWord? : List Char → List Char → Option (List Char)
  | [], s => some s
  | _ :: _, [] => none
  | c :: word, d :: s => if c = smallLetter d then behindWord? word s else none

/-- What stands behind the word `version` and blanks, up to the next blank. -/
def versionAt? (s : List Char) : Option (List Char) := do
  let rest ← behindWord? "version".toList s
  let tail := rest.dropWhile Text.isBlank
  let shown := tail.takeWhile fun c => !Text.isBlank c
  if rest.length = tail.length || shown.isEmpty then none else some shown

/-- The first version that a text tells. -/
def findVersion : List Char → Option (List Char)
  | [] => none
  | c :: rest => (versionAt? (c :: rest)).or (findVersion rest)

/-- The text of an output; a missing output is empty. -/
def outputText (output : Document) : Except Failure String :=
  match output with
  | .text s => .ok s
  | d =>
    if d.truthy then .error (.kind s!"expected string or bytes-like object, got '{d.shortKind}'")
    else .ok ""

/-- The version in the output of the load balancer. -/
def versionOf (output : Document) : Except Failure String := do
  match findVersion (← outputText output).toList with
  | some v => return String.ofList v
  | none => throw (.runtime s!"unexpected haproxy -v output: {output.shown}")

/-- The pod of the first router. -/
def routerPod (pods : Option (Listing Pod)) : Except Failure (Option String) := do
  match (← present "items" pods).items.getD [] with
  | [] => throw (.runtime s!"no running router pods in {routerNamespace}")
  | pod :: _ => return (← present "name" pod.metadata).name

/-- The version of the load balancer, as a router tells it. -/
def loadBalancerVersion : Action τ String := do
  let pods ← Action.apiOrFail (.listPods routerNamespace routerSelector "Running")
  let pod ← Action.ofExcept (routerPod pods)
  let call : ExecCall := { pod, ns := routerNamespace, command := ["haproxy", "-v"], withErrors := true }
  match ← Action.ask (.exec call) with
  | .ok output => Action.ofExcept (versionOf output)
  | .error fault => throw fault.failure

end IngressBench.Discovery
