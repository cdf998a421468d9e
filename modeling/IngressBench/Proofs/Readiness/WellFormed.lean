import IngressBench.Proofs.Outcome
import IngressBench.Readiness.Await
import IngressBench.World

/-!
Answers of a cluster that can be judged. A well-formed deployment has all the parts that a report
about it needs, so that its state can be told (`Deployment.WellFormed.state_tells`).
-/
namespace IngressBench

variable {τ : Type}

/-- A deployment with a name, a selector and a status. -/
structure Deployment.WellFormed (d : Deployment) : Prop where
  metadata : ∃ m name, d.metadata = some m ∧ m.name = some name
  spec : ∃ spec selector, d.spec = some spec ∧ spec.selector = some selector
  status : ∃ status, d.status = some status

/-- A pod with a name, a specification and a status. -/
structure Pod.WellFormed (p : Pod) : Prop where
  metadata : ∃ m name, p.metadata = some m ∧ m.name = some name
  spec : ∃ node, p.spec = some node
  status : ∃ status, p.status = some status

/-- A listing of well-formed pods, or a refusal of the cluster to list them. -/
def SoundListing : Except ApiFault (Option (Listing Pod)) → Prop
  | .ok listing => ∃ pods, listing = some ⟨some pods⟩ ∧ ∀ p ∈ pods, p.WellFormed
  | .error fault => ∃ status reason, fault = .rejected status reason

/-- An event that is no answer about a deployment or about pending pods, or a well-formed one. -/
def Event.Sound : Event τ → Prop
  | .asked (.api (.readDeployment ..)) (.ok d) _ => d.WellFormed
  | .asked (.api (.listPods _ _ phase)) reply _ => phase = "Pending" → SoundListing reply
  | _ => True

/-! ### Computations that succeed -/

theorem filterMapM_ok {α β : Type} {f : α → Except Failure (Option β)} {g : α → Option β}
    (h : ∀ a, f a = .ok (g a)) (as : List α) : as.filterMapM f = .ok (as.filterMap g) := by
  induction as with
  | nil => rfl
  | cons a rest ih =>
    rw [List.filterMapM_cons, h a, List.filterMap_cons, ih]
    cases g a <;> rfl

theorem present_some {α : Type} {name : String} {o : Option α} {a : α} (h : o = some a) :
    present name o = .ok a := by
  rw [h]
  rfl

theorem named_some {title field name : String} {o : Option String} (h : o = some name) :
    named title field o = .ok name := by
  rw [h]
  rfl

/-! ### Deployments -/

/-- The diagnostic tells the state of a deployment. -/
structure Diagnostic.Tells (g : Diagnostic) (ns : String) (d : Deployment) : Prop where
  ns : g.ns = ns
  deployment : ∃ m, d.metadata = some m ∧ m.name = some g.deployment
  selector : d.selector = .ok g.selector
  desired : ∃ spec, d.spec = some spec ∧ g.desired = countOf spec.replicas
  counts : ∃ status, d.status = some status ∧ g.ready = countOf status.ready ∧
    g.available = countOf status.available

/-- The state of a well-formed deployment can be told. -/
theorem Deployment.WellFormed.state_tells {d : Deployment} (h : d.WellFormed) (ns : String) :
    ∃ state, d.state ns = .ok state ∧ state.pending = [] ∧ state.Tells ns d := by
  obtain ⟨⟨m, name, hm, hname⟩, ⟨spec, labels, hspec, hlabels⟩, ⟨status, hstatus⟩⟩ := h
  have hselector : d.selector = .ok (selectorText (labels.getD [])) :=
    bind_eq_of_ok (present_some hspec) (bind_eq_of_ok (present_some hlabels) rfl)
  refine ⟨_, bind_eq_of_ok hselector (bind_eq_of_ok (present_some hm)
    (bind_eq_of_ok (present_some hspec) (bind_eq_of_ok (present_some hstatus)
      (bind_eq_of_ok (named_some hname) rfl)))), rfl, ?_⟩
  exact ⟨rfl, ⟨m, hm, hname⟩, hselector, ⟨spec, hspec, rfl⟩, ⟨status, hstatus, rfl, rfl⟩⟩

end IngressBench
