import IngressBench.Document

/-!
Objects of a cluster: what identifies one, and the manifest that creates it.
-/
namespace IngressBench

/-- The kinds of objects that a benchmark needs. -/
inductive ObjectKind where
  | ns
  | deployment
  | service
  | route
  | roleBinding
deriving Repr, DecidableEq

/-- What identifies an object. Namespaces and role bindings belong to the whole cluster. -/
structure ObjectRef where
  kind : ObjectKind
  ns : Option String
  name : String
deriving Repr, DecidableEq

/-- An object as it is to be created. -/
structure Manifest where
  ref : ObjectRef
  body : Document

/-- The API group, its version and the plural name of routes. -/
def routeGroup : String := "route.openshift.io"

def routeVersion : String := "v1"

def routePlural : String := "routes"

/-- The namespace of the routers. -/
def routerNamespace : String := "openshift-ingress"

end IngressBench
