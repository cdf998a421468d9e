import IngressBench.Cluster.Assets
import IngressBench.Readiness.Await

/-!
Scaling the deployments of a benchmark to the replicas that a test case asks for: the servers first,
then the clients.
-/
namespace IngressBench

variable {τ : Type} [TimeScale τ]

/-- Logs why a deployment is not ready, and which of its containers wait. -/
def reportNotReady (report : NotReady) : Action τ Unit := do
  Action.log .error report.message
  for entry in (report.diagnostic.map Diagnostic.pending).getD [] do
    Action.log .error entry.text

/-- Waits until a deployment is ready, and reports when it is not. -/
def awaitReported (pace : Pace τ) (ns name : String) (timeout : τ) : Action τ Unit := do
  match ← Action.attempt (awaitReady pace ns name timeout) with
  | .ok () => return
  | .error failure => do
    if let .notReady report := failure then reportNotReady report
    throw failure

/-- Scales a deployment and waits for it; tells whether there was anything to do. -/
def scaleTo (pace : Pace τ) (timeout : τ) (ns name : String) (replicas : Int) :
    Action τ Bool := do
  let d ← Action.apiOrFail (.readDeployment ns name)
  if (← Action.ofExcept d.readyCount) == replicas then
    Action.log .debug s!"Deployment {name} already has {replicas} ready replicas"
    return false
  Action.log .info s!"Scaling deployment {name} to {replicas} replicas"
  Action.apiOrFail (.scale ns name replicas)
  awaitReported pace ns name timeout
  return true

/-- Scales the servers, then the clients. -/
def reconcile (pace : Pace τ) (timeout : τ) (ns : String) (servers clients : Int) :
    Action τ Unit := do
  let _ ← scaleTo pace timeout ns Assets.serverName servers
  let _ ← scaleTo pace timeout ns Assets.clientName clients

end IngressBench
