import IngressBench.Document.Shown

/-!
What a cluster tells about its objects. Every part of an answer may be absent, and absent counts are
zero.
-/
namespace IngressBench

/-- Labels by name. -/
abbrev Labels := List (String × String)

/-- The name and the labels of an object. -/
structure ObjectMeta where
  name : Option String := none
  labels : Option Labels := none
deriving Repr, DecidableEq

/-! ### Deployments -/

structure DeploymentSpec where
  replicas : Option Int := none
  /-- The labels that select the pods, inside a selector that may be absent itself. -/
  selector : Option (Option Labels) := none
deriving Repr, DecidableEq

structure DeploymentStatus where
  replicas : Option Int := none
  ready : Option Int := none
  available : Option Int := none
  updated : Option Int := none
deriving Repr, DecidableEq

/-- A deployment at one time. -/
structure Deployment where
  metadata : Option ObjectMeta := none
  spec : Option DeploymentSpec := none
  status : Option DeploymentStatus := none
deriving Repr, DecidableEq

/-! ### Pods and nodes -/

/-- Why a container waits. -/
structure Waiting where
  reason : Option String := none
  message : Option String := none
deriving Repr, DecidableEq

structure ContainerStatus where
  name : Option String := none
  waiting : Option Waiting := none
deriving Repr, DecidableEq

structure PodCondition where
  type : Option String := none
  status : Option String := none
  reason : Option String := none
  message : Option String := none
deriving Repr, DecidableEq

structure PodStatus where
  containers : Option (List ContainerStatus) := none
  conditions : Option (List PodCondition) := none
  reason : Option String := none
  message : Option String := none
deriving Repr, DecidableEq

structure Pod where
  metadata : Option ObjectMeta := none
  /-- The node of the pod, inside a specification that may be absent itself. -/
  spec : Option (Option String) := none
  status : Option PodStatus := none
deriving Repr, DecidableEq

/-- A node of the cluster. -/
structure ClusterNode where
  metadata : Option ObjectMeta := none
deriving Repr, DecidableEq

/-- A list of objects. -/
structure Listing (α : Type) where
  items : Option (List α) := none
deriving Repr, DecidableEq

/-! ### Reading -/

namespace Snapshot

/-- A part, nothing when it is absent or nothing. -/
def part? (d : Document) (name : String) : Option Document :=
  match d.part name with
  | .null => none
  | v => some v

def text? (d : Document) (name : String) : Option String :=
  (part? d name).map Document.plain

def count? (d : Document) (name : String) : Option Int :=
  (part? d name).bind Document.int?

def labelsOf : Document → Labels
  | .map entries => entries.map fun (k, v) => (k.plain, v.plain)
  | _ => []

def list? {α : Type} (read : Document → α) (d : Document) (name : String) : Option (List α) :=
  (part? d name).map fun v => ((v.items?).getD []).map read

def objectMeta (d : Document) : Option ObjectMeta :=
  (part? d "metadata").map fun m => ⟨text? m "name", (part? m "labels").map labelsOf⟩

end Snapshot

open Snapshot

/-- A deployment from an answer of the cluster. -/
def Deployment.ofDocument (d : Document) : Deployment where
  metadata := objectMeta d
  spec := (part? d "spec").map fun s =>
    ⟨count? s "replicas", (part? s "selector").map fun sel => (part? sel "match_labels").map labelsOf⟩
  status := (part? d "status").map fun s =>
    ⟨count? s "replicas", count? s "ready_replicas", count? s "available_replicas",
      count? s "updated_replicas"⟩

def ContainerStatus.ofDocument (d : Document) : ContainerStatus where
  name := text? d "name"
  waiting := (part? d "state").bind fun s =>
    (part? s "waiting").map fun w => ⟨text? w "reason", text? w "message"⟩

def PodCondition.ofDocument (d : Document) : PodCondition :=
  ⟨text? d "type", text? d "status", text? d "reason", text? d "message"⟩

/-- A pod from an answer of the cluster. -/
def Pod.ofDocument (d : Document) : Pod where
  metadata := objectMeta d
  spec := (part? d "spec").map fun s => text? s "node_name"
  status := (part? d "status").map fun s =>
    ⟨list? ContainerStatus.ofDocument s "container_statuses",
      list? PodCondition.ofDocument s "conditions", text? s "reason", text? s "message"⟩

def ClusterNode.ofDocument (d : Document) : ClusterNode where
  metadata := objectMeta d

/-- A list of objects from an answer of the cluster, nothing when there is no answer. -/
def Listing.ofDocument? {α : Type} (read : Document → α) (d : Document) : Option (Listing α) :=
  match d with
  | .null => none
  | d => some ⟨list? read d "items"⟩

end IngressBench
