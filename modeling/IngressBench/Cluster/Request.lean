import IngressBench.Cluster.Call

/-!
Requests: how calls are put to the interface of a cluster. A request names a group of the interface,
an operation of the group, and the arguments of the operation.
-/
namespace IngressBench

/-- A request to the interface of a cluster. -/
structure Request where
  group : String
  operation : String
  arguments : List (String × Document) := []
  /-- The object that the request is about, or which pods it asks for. -/
  subject : Option String := none

/-- The full name of a request's operation. -/
def Request.name (r : Request) : String :=
  r.group ++ "." ++ r.operation

namespace ApiCall

/-- The group that objects of a kind belong to. -/
def groupOf : ObjectKind → String
  | .ns | .service => "core"
  | .deployment => "apps"
  | .route => "custom"
  | .roleBinding => "rbac"

/-- A kind of objects in the names of operations. -/
def kindWord : ObjectKind → String
  | .ns => "namespace"
  | .deployment => "namespaced_deployment"
  | .service => "namespaced_service"
  | .route => "namespaced_custom_object"
  | .roleBinding => "cluster_role_binding"

/-- The arguments that tell an API group, its version and a kind of objects in it. -/
def kindArguments (group version plural : String) : List (String × Document) :=
  [("group", .text group), ("version", .text version), ("plural", .text plural)]

def routeArguments : List (String × Document) :=
  kindArguments routeGroup routeVersion routePlural

/-- The arguments that tell where an object is. -/
def placeArguments (r : ObjectRef) : List (String × Document) :=
  (if r.kind = .route then routeArguments else []) ++
    r.ns.toList.map fun n => ("namespace", .text n)

/-- The request to do something with an object. -/
def objectRequest (verb : String) (r : ObjectRef) (arguments : List (String × Document)) :
    Request where
  group := groupOf r.kind
  operation := verb ++ "_" ++ kindWord r.kind
  arguments := placeArguments r ++ arguments
  subject := some r.name

/-- The request for a change of the ingress controller. -/
def controllerRequest (body : Document) : Request where
  group := "custom"
  operation := "patch_namespaced_custom_object"
  arguments := kindArguments "operator.openshift.io" "v1" "ingresscontrollers" ++
    [("namespace", .text "openshift-ingress-operator"), ("name", .text "default"), ("body", body)]
  subject := some "default"

/-- A document with one value inside its specification. -/
def specOf (name : String) (value : Document) : Document :=
  .object [("spec", .object [(name, value)])]

/-- The arguments that name an object of a namespace. -/
def named (ns name : String) : List (String × Document) :=
  [("name", .text name), ("namespace", .text ns)]

/-- The request for a call. -/
def request : ApiCall → Request
  | create o => objectRequest "create" o.ref [("body", o.body)]
  | delete r => objectRequest "delete" r [("name", .text r.name)]
  | readNamespace name => ⟨"core", "read_namespace", [("name", .text name)], some name⟩
  | readDeployment ns name => ⟨"apps", "read_namespaced_deployment", named ns name, some name⟩
  | scale ns name replicas =>
    ⟨"apps", "patch_namespaced_deployment_scale",
      named ns name ++ [("body", specOf "replicas" (.int replicas))], some name⟩
  | listPods ns selector phase =>
    ⟨"core", "list_namespaced_pod", [("namespace", .text ns), ("label_selector", .text selector),
      ("field_selector", .text ("status.phase=" ++ phase))], some (ns ++ "/" ++ phase)⟩
  | listNodes => ⟨"core", "list_node", [], none⟩
  | version => ⟨"version", "get_code", [], none⟩
  | readConfig plural name =>
    ⟨"custom", "get_cluster_custom_object",
      kindArguments "config.openshift.io" "v1" plural ++ [("name", .text name)], some name⟩
  | readRoute ns name =>
    ⟨"custom", "get_namespaced_custom_object", routeArguments ++ named ns name, some name⟩
  | tune options => controllerRequest (specOf "tuningOptions" (.object options))

end ApiCall
end IngressBench
