import IngressBench.Readiness.Check
import IngressBench.Wait

/-!
Waiting for a deployment to become ready. A wait that ends too early tells the state of the
deployment that was read last and why its pods are pending.
-/
namespace IngressBench

variable {τ : Type} [TimeScale τ]

/-- A count as log lines show it. -/
def countText : Option Int → String
  | some n => toString n
  | none => "None"

/-- The state of a deployment, without its pods. -/
def Deployment.state (d : Deployment) (ns : String) : Except Failure Diagnostic := do
  let selector ← d.selector
  let name := (← present "name" d.metadata).name
  let spec ← present "replicas" d.spec
  let status ← present "ready_replicas" d.status
  return { ns, deployment := ← named "ReadinessDiagnostic" "deployment" name, selector
           desired := countOf spec.replicas, ready := countOf status.ready
           available := countOf status.available }

/-- The state of a deployment with the reasons of its pending pods. Without an answer about the
pods, the state alone. -/
def diagnose (ns : String) (d : Deployment) : Action τ Diagnostic := do
  let state ← Action.ofExcept (d.state ns)
  match ← Action.api (.listPods ns state.selector "Pending") with
  | .error (.rejected _ reason) => do
    Action.log .warning s!"Could not list pending pods of {state.deployment}: {reasonText reason}"
    return state
  | .error fault => throw fault.failure
  | .ok pods => do
    let pending ← Action.ofExcept (Listing.all pods >>= pendingOf)
    return { state with pending }

/-- Reads a deployment, and tells whether it is ready. -/
def checkReady (ns name : String) : Action τ (Deployment × Bool) := do
  let d ← Action.apiOrFail (.readDeployment ns name)
  let ready ← Action.ofExcept d.isReady
  let status := d.status.getD {}
  if ready then
    Action.log .debug s!"{countText status.updated} replicas from deployment {name} ready"
  else
    let desired := (d.spec.getD {}).replicas
    Action.log .debug
      s!"{countOf status.available}/{countText desired} replicas ready in deployment {name}"
  return (d, ready)

/-- The failure of a wait for a deployment. -/
def notReadyFailure (ns name : String) (fault : WaitFault) (d : Deployment) : Action τ Failure := do
  let diagnostic ← diagnose ns d
  return .notReady ⟨s!"deployment {ns}/{name} not ready: {diagnostic.summary} ({fault.message})",
    some diagnostic, fault.isCancelled⟩

/-- Waits until a deployment is ready. -/
def awaitReady (pace : Pace τ) (ns name : String) (timeout : τ) : Action τ Unit := do
  Action.log .info s!"Waiting for replicas from deployment {name} in ns {ns} to be ready"
  match ← watch pace timeout (checkReady ns name) with
  | (_, none) => return
  | (d, some fault) => throw (← notReadyFailure ns name fault d)

end IngressBench
