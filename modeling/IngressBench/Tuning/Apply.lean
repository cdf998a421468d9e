import IngressBench.Readiness.Await
import IngressBench.Tuning.Profile

/-!
Applying a tuning profile to the ingress controller, and waiting until its routers are ready again.
-/
namespace IngressBench.Tuning

variable {τ : Type} [TimeScale τ]

def routerDeployment : String := "router-default"

/-- The failure of a profile whose options could not be set, or whose routers did not become ready.
A cancelled wait stays what it is. -/
def failureOf (profile : String) : Failure → Failure
  | .rejected _ reason => .tuning (.patch profile reason)
  | .notReady report =>
    if report.cancelled then .notReady report else .tuning (.router profile report.message)
  | failure => failure

/-- Sets the options, and waits for the routers. -/
def applyOptions (pace : Pace τ) (timeout : τ) (options : List (String × Document)) :
    Action τ Unit := do
  Action.apiOrFail (.tune options)
  awaitReady pace routerNamespace routerDeployment timeout

/-- Applies a profile. -/
def apply (pace : Pace τ) (timeout : τ) (profile : String) : Action τ Unit := do
  let options ← Action.ofExcept (Profile.read profile)
  Action.log .info s!"Applying ingress tuning profile: {profile}"
  match ← Action.attempt (applyOptions pace timeout options) with
  | .ok () => return
  | .error failure => throw (failureOf profile failure)

end IngressBench.Tuning
