import IngressBench.Cluster.Assets
import IngressBench.Json.Writing
import IngressBench.World

/-!
An ideal cluster: it does at once what it is asked for. A deployment has as many ready replicas as it
was scaled to, a namespace that is asked about is gone, every route has a host, and every process of
a load generator measures the same. The cluster has no configuration of a distribution.
-/
namespace IngressBench

/-- An ideal cluster, told by the replicas of its deployments. -/
structure Ideal where
  replicas : List (String × Int) := []
deriving Repr, DecidableEq

namespace Ideal

/-- The replicas of a deployment; one that was never scaled has none. -/
def count (s : Ideal) (name : String) : Int :=
  (s.replicas.lookup name).getD 0

/-- A deployment whose replicas are all ready. -/
def deployment (name : String) (n : Int) : Deployment where
  metadata := some { name := some name, labels := some [("app", name)] }
  spec := some { replicas := some n, selector := some (some [("app", name)]) }
  status := some { replicas := some n, ready := some n, available := some n, updated := some n }

def pod (name : String) : Pod where
  metadata := some { name := some name }

/-- The running pods: one router, and one client for every replica of the clients. -/
def running (s : Ideal) (ns : String) : List Pod :=
  if ns = routerNamespace then [pod "router-default-0"]
  else (List.range (s.count Assets.clientName).toNat).map fun i => pod ("client-" ++ toString i)

/-- The fault of an object that is not there. -/
def missing : ApiFault :=
  .rejected ApiFault.notFound (some "Not Found")

/-- The answer to a call. -/
def answer (s : Ideal) : (call : ApiCall) → Except ApiFault call.Reply
  | .create _ | .delete _ | .scale .. | .tune _ => .ok ()
  | .readNamespace _ | .readConfig .. => .error missing
  | .readDeployment _ name => .ok (deployment name (s.count name))
  | .listPods ns _ phase => .ok (some ⟨some (if phase = "Running" then s.running ns else [])⟩)
  | .listNodes => .ok (some ⟨some []⟩)
  | .version => .ok (some (.text "v1.29.0"))
  | .readRoute ns name =>
    .ok (.object [("spec", .object [("host", .text s!"{name}-{ns}.apps.example.com")])])

/-- The cluster after a call. -/
def after (s : Ideal) : ApiCall → Ideal
  | .scale _ name n => ⟨(name, n) :: s.replicas.filter fun e => e.1 ≠ name⟩
  | _ => s

/-- What a load generator measures. -/
def measurement : Document :=
  .object [("requests", .int 1000), ("rps", .real 100.0), ("avg_lat_us", .int 2000),
    ("max_lat_us", .int 9000), ("p90_lat_us", .int 3000), ("p95_lat_us", .int 4000),
    ("p99_lat_us", .int 6000), ("http_errors", .int 1), ("timeouts", .int 0)]

/-- What a command prints: the load balancer its version, a load generator its measurements. -/
def output (command : List String) : Document :=
  if command.head? = some "haproxy" then .text "HAProxy version 2.8.5-aaba8d0 2023/12/07\n"
  else .text (Json.text measurement)

/-- The answer of a metrics server that knows nothing. -/
def metrics : HttpAnswer where
  status := 200
  reason := ""
  body := Json.text (.object [("status", .text "success"),
    ("data", .object [("resultType", .text "vector"), ("result", .list [])])])

end Ideal
end IngressBench
