import IngressBench.Cluster.Assets
import IngressBench.Wait

/-!
Removing the objects of a benchmark. A namespace that was there before the benchmark stays, and the
objects inside it go one by one; a namespace of the benchmark's own goes as a whole. The binding of
the clients' role goes last.
-/
namespace IngressBench

variable {τ : Type} [TimeScale τ]

/-- Deletes objects in order. -/
def deleteAll : List ObjectRef → Action τ Unit
  | [] => return
  | object :: rest => do
    Action.apiOrFail (.delete object)
    deleteAll rest

/-- Whether a namespace is gone. -/
def namespaceGone (ns : String) : Action τ Bool := do
  match ← Action.api (.readNamespace ns) with
  | .ok () => return false
  | .error fault =>
    if fault.hasStatus ApiFault.notFound then return true
    else throw fault.failure

/-- Deletes a namespace and waits until it is gone. -/
def removeNamespace (pace : Pace τ) (timeout : τ) (ns : String) : Action τ Unit := do
  Action.apiOrFail (.delete ⟨.ns, none, ns⟩)
  Action.log .info s!"Waiting for namespace {ns} to be deleted"
  waitUntil pace timeout (namespaceGone ns)

/-- Removes the objects of a benchmark; `existed` tells whether the namespace was there before. -/
def removeAssets (pace : Pace τ) (timeout : τ) (existed : Bool) (ns : String) : Action τ Unit := do
  Action.log .info "Cleaning up resources"
  if existed then deleteAll (Assets.removable ns)
  else removeNamespace pace timeout ns
  Action.apiOrFail (.delete (Assets.bindingRef ns))

end IngressBench
