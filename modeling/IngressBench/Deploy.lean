import IngressBench.Cluster.Assets
import IngressBench.Program

/-!
Creating the objects of a benchmark. An object that is there already is kept as it is; any other
fault ends the creation.
-/
namespace IngressBench

variable {τ : Type}

/-- Creates an object, and tells whether it was there already. -/
def create (object : Manifest) : Action τ Bool := do
  match ← Action.api (.create object) with
  | .ok () => return false
  | .error fault =>
    if fault.hasStatus ApiFault.alreadyExists then return true
    else throw fault.failure

/-- Creates objects in order. -/
def createAll : List Manifest → Action τ Unit
  | [] => return
  | object :: rest => do
    let _ ← create object
    createAll rest

/-- Creates every object of a benchmark, the namespace first, and tells whether the namespace was
there already. -/
def deploy (ns : String) : Action τ Bool := do
  Action.log .info s!"Deploying benchmark assets in namespace {ns}"
  let existed ← create (Assets.namespaceManifest ns)
  if existed then Action.log .info s!"Namespace {ns} already exists"
  createAll (Assets.inside ns)
  return existed

end IngressBench
