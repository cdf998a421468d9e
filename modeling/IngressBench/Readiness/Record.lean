import IngressBench.Readiness.Diagnostic
import IngressBench.Record.Intake

/-!
Diagnostics as records: read from named values, and written as documents.
-/
namespace IngressBench

open Record

namespace PendingContainer

/-- A pending container from named values. -/
def intake (fields : Fields) : Intake PendingContainer := do
  let pod ← required fields "pod" "" asText
  let node ← optional fields "node" none (orNothing asText)
  let container ← optional fields "container" none (orNothing asText)
  let reason ← required fields "reason" "" asText
  let message ← optional fields "message" none (orNothing asText)
  return { pod, node, container, reason, message }

def ofFields (fields : Fields) : Except Failure PendingContainer :=
  finish "PendingContainer" (intake fields)

def document (p : PendingContainer) : Document :=
  .object [("pod", .text p.pod), ("node", .ofText? p.node), ("container", .ofText? p.container),
    ("reason", .text p.reason), ("message", .ofText? p.message)]

end PendingContainer

namespace Diagnostic

/-- The pending containers of a list from the item at `position` on, the issues placed under their
items. -/
def pendingIntake : Nat → List Document → Intake (List PendingContainer)
  | _, [] => return []
  | position, d :: rest => do
    let first ← match d with
      | .map entries => do
        let named := entries.filterMap fun (k, v) => k.text?.map (·, v)
        let (p, issues) ← (PendingContainer.intake named).run []
        modify (· ++ issues.map fun i => (i.under (.item position)).under (.field "pending"))
        pure [p]
      | _ => do
        modify (· ++ [⟨[.field "pending", .item position], .notRecord "PendingContainer"⟩])
        pure []
    return first ++ (← pendingIntake (position + 1) rest)

/-- A diagnostic from named values. -/
def intake (fields : Fields) : Intake Diagnostic := do
  let ns ← required fields "namespace" "" asText
  let deployment ← required fields "deployment" "" asText
  let selector ← optional fields "selector" "" asText
  let desired ← optional fields "desired" 0 asWhole
  let ready ← optional fields "ready" 0 asWhole
  let available ← optional fields "available" 0 asWhole
  let pending ← match List.lookup "pending" fields with
    | none => pure []
    | some (.list items) => pendingIntake 0 items
    | some _ => do
      note "pending" .notList
      pure []
  return { ns, deployment, selector, desired, ready, available, pending }

def ofFields (fields : Fields) : Except Failure Diagnostic :=
  finish "ReadinessDiagnostic" (intake fields)

def document (d : Diagnostic) : Document :=
  .object [("namespace", .text d.ns), ("deployment", .text d.deployment),
    ("selector", .text d.selector), ("desired", .int d.desired), ("ready", .int d.ready),
    ("available", .int d.available), ("pending", .list (d.pending.map PendingContainer.document))]

end Diagnostic
end IngressBench
