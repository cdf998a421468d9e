import IngressBench.Cluster.Object
import IngressBench.Cluster.Snapshot

/-!
The calls to the interface of a cluster, and their answers.
-/
namespace IngressBench

/-- A call to the interface of a cluster. -/
inductive ApiCall where
  | create (object : Manifest)
  | delete (object : ObjectRef)
  | readNamespace (name : String)
  | readDeployment (ns name : String)
  /-- Sets the count of replicas that a deployment is to have. -/
  | scale (ns name : String) (replicas : Int)
  | listPods (ns selector phase : String)
  | listNodes
  | version
  /-- An object of the cluster's own configuration. -/
  | readConfig (plural name : String)
  | readRoute (ns name : String)
  /-- Sets the tuning options of the ingress controller. -/
  | tune (options : List (String × Document))

/-- What a successful call answers. The version comes as it stands in the answer, and as nothing when
there is no answer. -/
def ApiCall.Reply : ApiCall → Type
  | create _ | delete _ | readNamespace _ | scale .. | tune _ => Unit
  | readDeployment .. => Deployment
  | listPods .. => Option (Listing Pod)
  | listNodes => Option (Listing ClusterNode)
  | version => Option Document
  | readConfig .. | readRoute .. => Document

/-- The reply that a document stands for. -/
def ApiCall.replyOf (d : Document) : (call : ApiCall) → call.Reply
  | create _ | delete _ | readNamespace _ | scale .. | tune _ => ()
  | readDeployment .. => Deployment.ofDocument d
  | listPods .. => Listing.ofDocument? Pod.ofDocument d
  | listNodes => Listing.ofDocument? ClusterNode.ofDocument d
  | version =>
    match d with
    | .null => none
    | d => some (d.part "git_version")
  | readConfig .. | readRoute .. => d

/-- How a call fails. -/
inductive ApiFault where
  | rejected (status : Int) (reason : Option String)
  | unreachable (text : String)
deriving Repr, DecidableEq

namespace ApiFault

/-- The status of an object that is there already. -/
def alreadyExists : Int := 409

/-- The status of an object that is not there. -/
def notFound : Int := 404

def hasStatus (fault : ApiFault) (status : Int) : Bool :=
  match fault with
  | rejected s _ => s == status
  | unreachable _ => false

end ApiFault
end IngressBench
