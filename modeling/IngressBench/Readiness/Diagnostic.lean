/-!
Why a deployment is not ready: its replica counts and, for every container that waits, the reason.
-/
namespace IngressBench

/-- Why a container of a pending pod is not running yet; without a container, why the pod is not. -/
structure PendingContainer where
  pod : String
  node : Option String := none
  container : Option String := none
  reason : String
  message : Option String := none
deriving Repr, DecidableEq

/-- The container with its pod and node, its reason and its message. -/
def PendingContainer.text (p : PendingContainer) : String :=
  let container := match p.container with
    | some c => if c.isEmpty then "" else "/" ++ c
    | none => ""
  let node := match p.node with
    | some n => if n.isEmpty then "<unscheduled>" else n
    | none => "<unscheduled>"
  s!"{p.pod}{container}@{node}: {p.reason}: " ++ p.message.getD ""

/-- The state of a deployment that is not ready. -/
structure Diagnostic where
  ns : String
  deployment : String
  selector : String := ""
  desired : Int := 0
  ready : Int := 0
  available : Int := 0
  pending : List PendingContainer := []
deriving Repr, DecidableEq

/-- How many of the replicas that are wanted can be used. -/
def Diagnostic.summary (d : Diagnostic) : String :=
  s!"{d.available}/{d.desired} replicas ready"

end IngressBench
