import IngressBench.Proofs.Readiness.Pending
import IngressBench.Proofs.Run.Sample

/-!
What a diagnostic of a deployment comes to. No pending pod goes unexplained: the diagnostic has a
group of entries for every pod that the cluster lists, in the order of the listing, and it is not
lost when the cluster refuses to list them (`diagnose_explains`).
-/
namespace IngressBench

variable {τ σ : Type}

/-- What a diagnostic of a deployment comes to, by the answer about its pending pods. -/
structure Diagnosed (ns : String) (d : Deployment)
    (reply : Except ApiFault (Option (Listing Pod))) (r : Except Failure Diagnostic) : Prop where
  /-- Every pod that is listed has a group of entries that explain it, in the order of the pods. -/
  explained : ∀ pods, reply = .ok (some ⟨some pods⟩) → (∀ p ∈ pods, p.WellFormed) →
    ∃ g groups, r = .ok g ∧ g.Tells ns d ∧ List.Forall₂ Pod.Explained pods groups ∧
      g.pending = groups.flatten
  /-- A refusal to list the pods leaves the state of the deployment. -/
  refused : ∀ status reason, reply = .error (.rejected status reason) →
    ∃ g, r = .ok g ∧ g.Tells ns d ∧ g.pending = []

/-- **No pending pod goes unexplained.** A diagnostic of a well-formed deployment lists the pending
pods that the selector of the deployment selects, once, and tells why each of them is pending. -/
theorem diagnose_explains [TimeScale τ] {d : Deployment} (hd : d.WellFormed) (ns : String)
    (w : World τ σ) (now : τ) (world : σ) :
    let run := w.trace now world (diagnose ns d).run
    ∃ selector reply time lines, d.selector = .ok selector ∧
      run.2 = .asked (.api (.listPods ns selector "Pending")) reply time :: lines ∧
      (∀ e ∈ lines, ∃ text, e = .logged .warning text) ∧ Diagnosed ns d reply run.1 := by
  intro run
  have hleaves : (diagnose ns d).Leaves run.2 run.1 := w.trace_leaves now world (diagnose ns d).run
  obtain ⟨state, hstate, hnone, htells⟩ := hd.state_tells ns
  rcases leaves_diagnose hleaves with ⟨x, hx, -⟩ |
    ⟨state', reply, time, lines, hs, hr, hevs, hlines⟩
  · rw [hstate] at hx
    cases hx
  obtain rfl : state = state' := Except.ok.inj (hstate.symm.trans hs)
  refine ⟨state.selector, reply, time, lines, htells.selector, hevs, hlines, ?_, ?_⟩
  · rintro pods rfl hpods
    obtain ⟨g, groups, hg, hexplained, hpending⟩ := state.completed_listed hpods
    exact ⟨g, groups, hr.trans hg, htells.completed hg, hexplained, hpending⟩
  · rintro status reason rfl
    exact ⟨state, hr, htells, hnone⟩

namespace Sample

/-- A pod on a node. -/
def pod (name : String) (node : Option String) (status : PodStatus) : Pod :=
  { Ideal.pod name with spec := some node, status := some status }

/-- Pods that wait for their containers, for a node, and for a reason that is not told. -/
def pendingPods : List Pod :=
  [pod "a" (some "n1") { containers := some [
      ⟨some "proxy", some ⟨some "ImagePullBackOff", some "no image"⟩⟩,
      ⟨some "log", none⟩, ⟨some "probe", some ⟨some "", none⟩⟩] },
    pod "b" none { conditions := some [
      ⟨some "PodScheduled", some "False", some "Unschedulable", none⟩,
      ⟨some "Ready", some "False", some "NotReady", none⟩] },
    pod "c" none {}]

/-- Why they wait. -/
def pendingEntries : List PendingContainer :=
  [⟨"a", some "n1", some "proxy", "ImagePullBackOff", some "no image"⟩,
    ⟨"a", some "n1", some "probe", "Waiting", none⟩, ⟨"b", none, none, "Unschedulable", none⟩,
    ⟨"c", none, none, "Pending", none⟩]

theorem pendingPods_wellFormed : ∀ p ∈ pendingPods, p.WellFormed := by
  have hpod : ∀ name node status, (pod name node status).WellFormed :=
    fun name node status => ⟨⟨_, name, rfl, rfl⟩, ⟨node, rfl⟩, ⟨status, rfl⟩⟩
  simp [pendingPods, hpod]

/-- An ideal cluster, but for pods that wait. -/
def waits : World Nat Ideal :=
  world (fun s call => match call with
    | .listPods .. => .ok (some ⟨some pendingPods⟩)
    | call => s.answer call) Ideal.after

end Sample

theorem Ideal.deployment_wellFormed (name : String) (n : Int) : (deployment name n).WellFormed :=
  ⟨⟨_, name, rfl, rfl⟩, ⟨_, _, rfl, rfl⟩, ⟨_, rfl⟩⟩

/-- Containers that wait, a pod without a node, and one that tells nothing at all. -/
theorem diagnose_explains_waiting :
    let d := Ideal.deployment "nginx" 2
    let run := Sample.waits.trace 0 {} (diagnose "ingress-perf" d).run
    d.WellFormed ∧ (∃ selector reply time lines, d.selector = .ok selector ∧
      run.2 = .asked (.api (.listPods "ingress-perf" selector "Pending")) reply time :: lines ∧
      (∀ e ∈ lines, ∃ text, e = .logged .warning text) ∧ Diagnosed "ingress-perf" d reply run.1) ∧
    run.1.map Diagnostic.pending = .ok Sample.pendingEntries :=
  have hd := Ideal.deployment_wellFormed "nginx" 2
  ⟨hd, diagnose_explains hd "ingress-perf" Sample.waits 0 {}, by decide +kernel⟩

end IngressBench
