import IngressBench.Cluster.Snapshot

/-!
Roles of nodes. A node has a role when it carries the label of the role, whatever the label's value.
-/
namespace IngressBench

/-- What stands in front of a role in the name of its label. -/
def roleLabel : String := "node-role.kubernetes.io/"

/-- The rest of a text behind a start. -/
def behind? : List Char → List Char → Option (List Char)
  | [], s => some s
  | _ :: _, [] => none
  | c :: start, d :: s => if c = d then behind? start s else none

/-- The roles that labels name. -/
def rolesOf (labels : Labels) : List String :=
  labels.filterMap fun (name, _) => (behind? roleLabel.toList name.toList).map String.ofList

/-- How many nodes there are, and how many have which role. -/
structure NodeCount where
  total : Nat := 0
  masters : Nat := 0
  workers : Nat := 0
  infra : Nat := 0
deriving Repr, DecidableEq

/-- One more when a condition holds. -/
def oneIf (b : Bool) : Nat :=
  if b then 1 else 0

/-- The count after a node with the given roles. -/
def NodeCount.add (n : NodeCount) (roles : List String) : NodeCount where
  total := n.total + 1
  masters := n.masters + oneIf (roles.contains "master" || roles.contains "control-plane")
  workers := n.workers + oneIf (roles.contains "worker")
  infra := n.infra + oneIf (roles.contains "infra")

/-- The count of nodes, each told by its labels. -/
def countNodes (nodes : List Labels) : NodeCount :=
  nodes.foldl (fun n labels => n.add (rolesOf labels)) {}

end IngressBench
