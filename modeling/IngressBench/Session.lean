import IngressBench.Program
import IngressBench.Settings

/-!
Access to a cluster: where its configuration comes from, and the keys that come with it.
-/
namespace IngressBench

/-- Access to a cluster. -/
structure Session where
  keys : Keys := []
  poolSize : Nat := 200

namespace Session

variable {τ : Type}

/-- A text that is there and not empty. -/
def filled? (s : Option String) : Option String :=
  s.filter fun t => !t.isEmpty

/-- A key by its name; a key without a value is none. -/
def key? (keys : Keys) (name : String) : Option String :=
  (keys.lookup name).join

/-- A text without one word `Bearer` in front. -/
def withoutBearer (token : String) : String :=
  match token.toList with
  | 'B' :: 'e' :: 'a' :: 'r' :: 'e' :: 'r' :: ' ' :: rest => String.ofList rest
  | _ => token

/-- The token that the cluster is accessed with, if any. -/
def bearerToken (s : Session) : Option String :=
  ((filled? (key? s.keys "authorization")).or (key? s.keys "BearerToken")).map withoutBearer

/-! ### Connecting -/

/-- The configuration file of clusters in a home directory. -/
def homeConfig (home : String) : String :=
  Path.join home ".kube/config"

/-- The configuration file of the cluster: that of the settings, that of the environment, or the one
in the home directory if it exists. -/
def configFile (env : Environment) (settings : Settings) : Action τ (Option String) := do
  if let some path := settings.kubeconfig then return some path
  if let some path := filled? (env.values.lookup "KUBECONFIG") then return some (Path.normal path)
  let path := homeConfig env.home
  let found : Bool ← Action.ask (.file (.exists_ path))
  return if found then some path else none

/-- The keys of an access; an access that is refused is a fault of the configuration. -/
def keysOf (access : Access) : Action τ Keys := do
  match ← Action.ask (.access access) with
  | .ok keys => return keys
  | .error (.other _ text) => throw (.connectivity (.configuration text))
  | .error failure => throw failure

/-- Access to the cluster: by a configuration file, or from inside the cluster. -/
def connect (env : Environment) (settings : Settings) : Action τ Session := do
  match ← configFile env settings with
  | some path => do
    let keys ← keysOf (.file path)
    Action.log .info s!"Using kubeconfig {path}"
    return { keys, poolSize := settings.poolSize }
  | none => do
    let keys ← keysOf .inCluster
    Action.log .info "Using in-cluster Kubernetes configuration"
    return { keys, poolSize := settings.poolSize }

end Session
end IngressBench
