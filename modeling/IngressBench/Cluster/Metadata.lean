import IngressBench.Record.Intake

/-!
The identity of a cluster: its platform, name and versions, and how many nodes have which role. The
platform, the name and the version of the distribution are taken from the cluster's own objects as
they are, whatever values stand there.
-/
namespace IngressBench

/-- The identity of a cluster. -/
structure ClusterMetadata where
  platform : Document := .null
  clusterName : Document := .null
  ocpVersion : Document := .null
  k8sVersion : Option String := none
  totalNodes : Nat := 0
  masterNodes : Nat := 0
  workerNodes : Nat := 0
  infraNodes : Nat := 0
  haproxyVersion : Option String := none
deriving Inhabited

namespace ClusterMetadata

open Record

/-- A text or nothing. -/
def asLabel (d : Document) : Except Cause (Option String) :=
  orNothing asText d

/-- A count of nodes. -/
def asNodes (d : Document) : Except Cause Nat :=
  (atLeast 0 d).map Int.toNat

/-- The identity of a cluster from named values. -/
def intake (fields : Fields) : Intake ClusterMetadata := do
  let platform ← optional fields "platform" none asLabel
  let clusterName ← optional fields "cluster_name" none asLabel
  let ocpVersion ← optional fields "ocp_version" none asLabel
  let k8sVersion ← optional fields "k8s_version" none asLabel
  let totalNodes ← optional fields "total_nodes" 0 asNodes
  let masterNodes ← optional fields "master_nodes" 0 asNodes
  let workerNodes ← optional fields "worker_nodes" 0 asNodes
  let infraNodes ← optional fields "infra_nodes" 0 asNodes
  let haproxyVersion ← optional fields "haproxy_version" none asLabel
  return {
    platform := .ofText? platform, clusterName := .ofText? clusterName
    ocpVersion := .ofText? ocpVersion, k8sVersion, totalNodes, masterNodes, workerNodes
    infraNodes, haproxyVersion }

def ofFields (fields : Fields) : Except Failure ClusterMetadata :=
  finish "ClusterMetadata" (intake fields)

/-- The identity of a cluster as a document. -/
def document (m : ClusterMetadata) : Document :=
  .object [("platform", m.platform), ("cluster_name", m.clusterName),
    ("ocp_version", m.ocpVersion), ("k8s_version", .ofText? m.k8sVersion),
    ("total_nodes", .int m.totalNodes), ("master_nodes", .int m.masterNodes),
    ("worker_nodes", .int m.workerNodes), ("infra_nodes", .int m.infraNodes),
    ("haproxy_version", .ofText? m.haproxyVersion)]

end ClusterMetadata
end IngressBench
