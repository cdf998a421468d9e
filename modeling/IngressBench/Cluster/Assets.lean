import IngressBench.Cluster.Object
import IngressBench.TestCase

/-!
The objects of a benchmark: a namespace, the server deployment with its service, the client
deployment with the binding of its role, and one route for every termination. Both deployments start
without replicas.
-/
namespace IngressBench.Assets

def serverName : String := "nginx"

def serverImage : String := "quay.io/cloud-bulldozer/nginx:latest"

def httpPort : Int := 8080

def httpsPort : Int := 8443

def clientName : String := "ingress-perf-client"

def clientImage : String := "quay.io/cloud-bulldozer/ingress-netperf:latest"

def clientRole : String := "system:openshift:scc:hostnetwork"

/-- The route that serves a termination. -/
def routeName (t : Termination) : String :=
  serverName ++ "-" ++ t.name

/-- The binding of the clients' role. -/
def bindingName (ns : String) : String :=
  clientName ++ "-" ++ ns

/-! ### Manifests -/

/-- Labels as a document. -/
def labels (entries : List (String × String)) : Document :=
  .object (entries.map fun (k, v) => (k, .text v))

/-- The name of an object, and its namespace. -/
def identity (name : String) (ns : Option String) : Document :=
  .object ([("name", .text name)] ++ ns.toList.map fun n => ("namespace", .text n))

/-- Only nodes for workloads run the benchmark's pods. -/
def workerSelector : Document :=
  labels [("node-role.kubernetes.io/worker", "")]

def namespaceManifest (ns : String) : Manifest :=
  ⟨⟨.ns, none, ns⟩, .object [("metadata", .object [("name", .text ns),
    ("labels", labels [("kubernetes.io/metadata.name", ns)])])]⟩

/-- A deployment without replicas whose pods carry the name as a label. -/
def deployment (ns name : String) (pod : List (String × Document)) : Manifest :=
  let app := labels [("app", name)]
  ⟨⟨.deployment, some ns, name⟩, .object [("metadata", identity name (some ns)),
    ("spec", .object [("replicas", .int 0), ("selector", .object [("matchLabels", app)]),
      ("template", .object [("metadata", .object [("labels", app)]), ("spec", .object pod)])])]⟩

def namedPort (name : String) (port : Int) : Document :=
  .object [("name", .text name), ("containerPort", .int port)]

def serverDeployment (ns : String) : Manifest :=
  let container := .object [("name", .text serverName), ("image", .text serverImage),
    ("imagePullPolicy", .text "Always"),
    ("ports", .list [namedPort "http" httpPort, namedPort "https" httpsPort]),
    ("readinessProbe", .object [
      ("httpGet", .object [("path", .text "/"), ("port", .int httpPort)]),
      ("periodSeconds", .int 2)])]
  deployment ns serverName [("containers", .list [container]), ("nodeSelector", workerSelector)]

/-- Clients stay away from the nodes that run servers. -/
def awayFromServers : Document :=
  .object [("podAntiAffinity", .object [("requiredDuringSchedulingIgnoredDuringExecution", .list [
    .object [("labelSelector", .object [("matchLabels", labels [("app", serverName)])]),
      ("topologyKey", .text "kubernetes.io/hostname")]])])]

def clientDeployment (ns : String) : Manifest :=
  let container := .object [("name", .text clientName), ("image", .text clientImage),
    ("imagePullPolicy", .text "Always"), ("command", .list [.text "sleep", .text "inf"])]
  deployment ns clientName [("containers", .list [container]), ("hostNetwork", .bool true),
    ("nodeSelector", workerSelector), ("affinity", awayFromServers)]

def servicePort (name : String) (port : Int) : Document :=
  .object [("name", .text name), ("port", .int port), ("targetPort", .int port)]

def service (ns : String) : Manifest :=
  ⟨⟨.service, some ns, serverName⟩, .object [("metadata", identity serverName (some ns)),
    ("spec", .object [("selector", labels [("app", serverName)]),
      ("ports", .list [servicePort "http" httpPort, servicePort "https" httpsPort])])]⟩

/-- The port of the server that a route leads to: the encrypted one where the encryption goes on
behind the router. -/
def targetPort : Termination → String
  | .http | .edge => "http"
  | .passthrough | .reencrypt => "https"

def route (ns : String) (t : Termination) : Manifest :=
  let tls := if t = .http then [] else [("tls", .object [("termination", .text t.name)])]
  ⟨⟨.route, some ns, routeName t⟩, .object [
    ("apiVersion", .text (routeGroup ++ "/" ++ routeVersion)), ("kind", .text "Route"),
    ("metadata", identity (routeName t) (some ns)),
    ("spec", .object ([
      ("to", .object [("kind", .text "Service"), ("name", .text serverName)]),
      ("port", .object [("targetPort", .text (targetPort t))])] ++ tls))]⟩

/-- One route for every termination. -/
def routes (ns : String) : List Manifest :=
  Termination.all.map (route ns)

def roleBinding (ns : String) : Manifest :=
  ⟨⟨.roleBinding, none, bindingName ns⟩, .object [("metadata", identity (bindingName ns) none),
    ("roleRef", .object [("apiGroup", .text "rbac.authorization.k8s.io"),
      ("kind", .text "ClusterRole"), ("name", .text clientRole)]),
    ("subjects", .list [.object [("kind", .text "ServiceAccount"), ("name", .text "default"),
      ("namespace", .text ns)]])]⟩

/-- The objects behind the namespace, in the order of their creation. -/
def inside (ns : String) : List Manifest :=
  [serverDeployment ns, roleBinding ns, clientDeployment ns, service ns] ++ routes ns

/-- The objects of a shared namespace that go with the benchmark, in the order of their
deletion. -/
def removable (ns : String) : List ObjectRef :=
  [⟨.deployment, some ns, clientName⟩, ⟨.deployment, some ns, serverName⟩,
    ⟨.service, some ns, serverName⟩] ++ (routes ns).map Manifest.ref

/-- The reference of the role binding. -/
def bindingRef (ns : String) : ObjectRef :=
  ⟨.roleBinding, none, bindingName ns⟩

end IngressBench.Assets
