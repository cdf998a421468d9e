import IngressBench.Cluster.Snapshot
import IngressBench.Readiness.Record

/-!
Judging what a cluster tells about a deployment: whether all its replicas are ready, which labels
select its pods, and why a pod is pending.
-/
namespace IngressBench

/-- The failure of looking for a part in an answer that is absent. -/
def absentPart (name : String) : Failure :=
  .part s!"'NoneType' object has no attribute '{name}'"

/-- The failure of going through a list that is absent. -/
def absentList : Failure :=
  .kind "'NoneType' object is not iterable"

/-- A part of an answer, which has to be there when `name` is looked for inside it. -/
def present {α : Type} (name : String) : Option α → Except Failure α
  | some a => .ok a
  | none => .error (absentPart name)

/-- A count; an absent one is zero. -/
def countOf (n : Option Int) : Int :=
  n.getD 0

/-- A text that is there and not empty. -/
def nonempty? (s : Option String) : Option String :=
  s.filter fun t => !t.isEmpty

/-- The items of a listing. -/
def Listing.all {α : Type} (listing : Option (Listing α)) : Except Failure (List α) := do
  match (← present "items" listing).items with
  | some items => return items
  | none => throw absentList

namespace Deployment

/-- Whether all counts of replicas agree with the count that is wanted. -/
def isReady (d : Deployment) : Except Failure Bool := do
  let desired := countOf (← present "replicas" d.spec).replicas
  let status ← present "replicas" d.status
  return countOf status.replicas == desired && countOf status.ready == desired &&
    countOf status.available == desired

/-- How many replicas are ready. -/
def readyCount (d : Deployment) : Except Failure Int := do
  return countOf (← present "ready_replicas" d.status).ready

end Deployment

/-! ### Selectors -/

/-- Labels in the order of their names. -/
def sortedLabels (labels : Labels) : Labels :=
  labels.mergeSort fun a b => a.1 ≤ b.1

/-- The selector of pods with the given labels. -/
def selectorText (labels : Labels) : String :=
  ",".intercalate ((sortedLabels labels).map fun (name, value) => name ++ "=" ++ value)

/-- The selector of a deployment's pods. -/
def Deployment.selector (d : Deployment) : Except Failure String := do
  let labels ← present "match_labels" (← present "selector" d.spec).selector
  return selectorText (labels.getD [])

/-! ### Pending pods -/

/-- A name that a record needs. -/
def named (title field : String) : Option String → Except Failure String
  | some s => .ok s
  | none => .error (.invalid title [.at field .notText])

/-- The reason of a pod that waits as a whole: the last scheduling condition that does not hold, or
else what the pod itself tells. -/
def PodStatus.cause (s : PodStatus) : Option String × Option String :=
  (s.conditions.getD []).foldl (fun cause c =>
    if c.type = some "PodScheduled" ∧ c.status ≠ some "True" then (c.reason, c.message) else cause)
    (s.reason, s.message)

/-- The name and the node of a pod. -/
def Pod.place (p : Pod) : Except Failure (Option String × Option String) := do
  let name := (← present "name" p.metadata).name
  let node ← present "node_name" p.spec
  return (name, node)

/-- The entry of a container that waits. -/
def Pod.waitingContainer (p : Pod) (name : Option String) (w : Waiting) :
    Except Failure PendingContainer := do
  let (pod, node) ← p.place
  return { pod := ← named "PendingContainer" "pod" pod, node, container := name
           reason := (nonempty? w.reason).getD "Waiting", message := w.message }

/-- Why a pod is pending: one entry for every container that waits, or one for the pod. -/
def Pod.pending (p : Pod) : Except Failure (List PendingContainer) := do
  let status ← present "container_statuses" p.status
  let entries ← (status.containers.getD []).filterMapM fun c =>
    match c.waiting with
    | some w => do return some (← p.waitingContainer c.name w)
    | none => return none
  if !entries.isEmpty then return entries
  let (reason, message) := status.cause
  let (pod, node) ← p.place
  return [{ pod := ← named "PendingContainer" "pod" pod, node
            reason := (nonempty? reason).getD "Pending", message }]

/-- Why the pods of a list are pending. -/
def pendingOf : List Pod → Except Failure (List PendingContainer)
  | [] => .ok []
  | p :: rest => do return (← p.pending) ++ (← pendingOf rest)

end IngressBench
