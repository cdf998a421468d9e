import IngressBench.Readiness.Check

/-!
What the judgement of a deployment says. A deployment is judged ready exactly when all its counts
are at the count that its own specification wants (`Deployment.isReady_iff`).
-/
namespace IngressBench.Deployment

/-- The status tells so many ready replicas. -/
def HasReady (d : Deployment) (n : Int) : Prop :=
  ∃ status, d.status = some status ∧ countOf status.ready = n

/-- All counts of the status are what the specification wants. -/
def Agrees (d : Deployment) : Prop :=
  ∃ spec status, d.spec = some spec ∧ d.status = some status ∧
    countOf status.replicas = countOf spec.replicas ∧
    countOf status.ready = countOf spec.replicas ∧
    countOf status.available = countOf spec.replicas

/-- Only a deployment with a specification and a status can be judged. -/
theorem isReady_ok {d : Deployment} {ready : Bool} (h : d.isReady = .ok ready) :
    ∃ spec status, d.spec = some spec ∧ d.status = some status ∧
      ready = (countOf status.replicas == countOf spec.replicas &&
        countOf status.ready == countOf spec.replicas &&
        countOf status.available == countOf spec.replicas) := by
  unfold isReady at h
  cases hspec : d.spec with
  | none =>
    rw [hspec] at h
    cases h
  | some spec =>
    cases hstatus : d.status with
    | none =>
      rw [hspec, hstatus] at h
      cases h
    | some status =>
      rw [hspec, hstatus] at h
      exact ⟨spec, status, rfl, rfl, (Except.ok.inj h).symm⟩

/-- **All counts of a ready deployment agree.** -/
theorem isReady_true {d : Deployment} (h : d.isReady = .ok true) : d.Agrees := by
  obtain ⟨spec, status, hspec, hstatus, hcounts⟩ := isReady_ok h
  have hall := hcounts.symm
  rw [Bool.and_eq_true, Bool.and_eq_true, beq_iff_eq, beq_iff_eq, beq_iff_eq] at hall
  exact ⟨spec, status, hspec, hstatus, hall.1.1, hall.1.2, hall.2⟩

/-- **A deployment is judged ready exactly when all its counts agree.** -/
theorem isReady_iff {d : Deployment} : d.isReady = .ok true ↔ d.Agrees := by
  refine ⟨isReady_true, fun hagrees => ?_⟩
  obtain ⟨spec, status, hspec, hstatus, hreplicas, hready, havailable⟩ := hagrees
  unfold isReady
  rw [hspec, hstatus]
  show Except.ok (_ && _ && _) = _
  rw [hreplicas, hready, havailable, beq_self_eq_true]
  rfl

/-- A count of ready replicas comes from a status. -/
theorem readyCount_ok {d : Deployment} {n : Int} (h : d.readyCount = .ok n) : d.HasReady n := by
  unfold readyCount at h
  cases hstatus : d.status with
  | none =>
    rw [hstatus] at h
    cases h
  | some status =>
    rw [hstatus] at h
    exact ⟨status, hstatus, Except.ok.inj h⟩

end IngressBench.Deployment
