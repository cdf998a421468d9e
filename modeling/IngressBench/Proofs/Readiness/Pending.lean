import IngressBench.Proofs.Program.Leaves
import IngressBench.Proofs.Readiness.WellFormed
import Mathlib.Data.List.Forall2
import Mathlib.Data.List.Induction

/-!
Why pods are pending. Each well-formed pod has a group of entries of its own, one for every
container that waits or one for the pod as a whole, and no entry is without a reason
(`Pod.Explained`). A list of such pods has the groups one after the other (`pendingOf_explained`),
and so has a diagnostic that the cluster listed them for (`Diagnostic.completed_listed`).
-/
namespace IngressBench

variable {τ : Type}

/-! ### Pods as a whole -/

/-- The condition tells that the pod is not scheduled. -/
def PodCondition.Unscheduled (c : PodCondition) : Prop :=
  c.type = some "PodScheduled" ∧ c.status ≠ some "True"

instance (c : PodCondition) : Decidable c.Unscheduled :=
  inferInstanceAs (Decidable (_ ∧ _))

/-- A fold that replaces its value at some elements ends with the value of the last of them. -/
theorem foldl_replace_cases {α β : Type} (P : α → Prop) [DecidablePred P] (f : α → β) (start : β)
    (as : List α) :
    (∃ before a after, as = before ++ a :: after ∧ P a ∧ (∀ later ∈ after, ¬ P later) ∧
        as.foldl (fun b a => if P a then f a else b) start = f a) ∨
      (∀ a ∈ as, ¬ P a) ∧ as.foldl (fun b a => if P a then f a else b) start = start := by
  -- From the end of the list, since the last element that satisfies `P` has the last word.
  induction as using List.reverseRecOn with
  | nil => exact .inr ⟨by simp, rfl⟩
  | append_singleton as a ih =>
    rw [List.foldl_concat]
    by_cases ha : P a
    · exact .inl ⟨as, a, [], rfl, ha, by simp, if_pos ha⟩
    · rw [if_neg ha]
      rcases ih with ⟨before, b, after, rfl, hb, hafter, hfold⟩ | ⟨hnone, hfold⟩
      · refine .inl ⟨before, b, after ++ [a], by simp, hb, ?_, hfold⟩
        simpa [or_imp, forall_and] using ⟨hafter, ha⟩
      · refine .inr ⟨?_, hfold⟩
        simpa [or_imp, forall_and] using ⟨hnone, ha⟩

namespace PodStatus

/-- The status tells a reason and a message for the pod as a whole: those of the last condition that
tells that the pod is not scheduled, or else its own ones. -/
inductive Tells (s : PodStatus) : Option String → Option String → Prop
  | condition {before after : List PodCondition} {c : PodCondition}
      (hconditions : s.conditions.getD [] = before ++ c :: after) (hc : c.Unscheduled)
      (hlast : ∀ later ∈ after, ¬ later.Unscheduled) : Tells s c.reason c.message
  | itself (hnone : ∀ c ∈ s.conditions.getD [], ¬ c.Unscheduled) : Tells s s.reason s.message

/-- The cause of a pod that waits as a whole is what its status tells. -/
theorem tells_cause (s : PodStatus) : s.Tells s.cause.1 s.cause.2 := by
  have hcases := foldl_replace_cases PodCondition.Unscheduled (fun c => (c.reason, c.message))
    (s.reason, s.message) (s.conditions.getD [])
  rcases hcases with ⟨before, c, after, hconditions, hc, hlast, hfold⟩ | ⟨hnone, hfold⟩
  · have hcause : s.cause = (c.reason, c.message) := hfold
    rw [hcause]
    exact .condition hconditions hc hlast
  · have hcause : s.cause = (s.reason, s.message) := hfold
    rw [hcause]
    exact .itself hnone

/-- The containers that wait, in the order of the status, each with what it waits for. -/
def waiting (s : PodStatus) : List (Option String × Waiting) :=
  (s.containers.getD []).filterMap fun c => c.waiting.map fun why => (c.name, why)

end PodStatus

/-! ### Entries -/

/-- The name and the node of the pod. -/
def Pod.IsAt (p : Pod) (name : String) (node : Option String) : Prop :=
  (∃ m, p.metadata = some m ∧ m.name = some name) ∧ p.spec = some node

/-- The entry is about a container, or about the pod as a whole; another reason stands in for one
that is absent or empty. -/
structure PendingContainer.Shows (e : PendingContainer) (container reason message : Option String)
    (substitute : String) : Prop where
  container : e.container = container
  reason : e.reason = (nonempty? reason).getD substitute
  message : e.message = message

/-- The entry of a container that waits. -/
def PendingContainer.ShowsWaiting (e : PendingContainer) (c : Option String × Waiting) : Prop :=
  e.Shows c.1 c.2.reason c.2.message "Waiting"

/-- The entries explain why the pod is pending. -/
structure Pod.Explained (p : Pod) (entries : List PendingContainer) : Prop where
  nonempty : entries ≠ []
  /-- Every entry carries the name and the node of the pod. -/
  placed : ∀ e ∈ entries, p.IsAt e.pod e.node
  reasoned : ∀ e ∈ entries, e.reason ≠ ""
  /-- If containers wait, each has an entry, in their order. -/
  containers : ∀ s, p.status = some s → s.waiting ≠ [] →
    List.Forall₂ (fun c e => e.ShowsWaiting c) s.waiting entries
  /-- If none waits, there is one entry for the pod as a whole. -/
  whole : ∀ s, p.status = some s → s.waiting = [] → ∃ e reason message, entries = [e] ∧
    s.Tells reason message ∧ e.Shows none reason message "Pending"

/-- A reason for which another one stands in is not empty. -/
theorem PendingContainer.Shows.reason_ne {e : PendingContainer}
    {container reason message : Option String} {substitute : String}
    (h : e.Shows container reason message substitute) (hsubstitute : substitute ≠ "") :
    e.reason ≠ "" := by
  rw [h.reason, nonempty?]
  cases hreason : reason.filter fun t => !t.isEmpty with
  | none => exact hsubstitute
  | some text =>
    have hfilter := Option.filter_eq_some_iff.mp hreason
    simpa using hfilter.2

/-- The entry of a pod for one of its containers, or for the pod as a whole. -/
def Pod.entry (name : String) (node container reason message : Option String)
    (substitute : String) : PendingContainer :=
  { pod := name, node, container, reason := (nonempty? reason).getD substitute, message }

namespace Pod

variable {p : Pod} {name : String} {node : Option String} {s : PodStatus}

theorem WellFormed.place_eq (h : p.WellFormed) :
    ∃ name node, p.place = .ok (some name, node) ∧ p.IsAt name node := by
  obtain ⟨⟨m, name, hm, hname⟩, ⟨node, hnode⟩, -⟩ := h
  refine ⟨name, node, ?_, ⟨m, hm, hname⟩, hnode⟩
  unfold Pod.place
  rw [present_some hm, present_some hnode, ← hname]
  rfl

theorem waitingContainer_eq (hplace : p.place = .ok (some name, node)) (c : Option String)
    (why : Waiting) :
    p.waitingContainer c why = .ok (Pod.entry name node c why.reason why.message "Waiting") := by
  unfold Pod.waitingContainer
  rw [hplace]
  rfl

/-- The entries of a pod whose place is known. -/
theorem pending_eq (hs : p.status = some s) (hplace : p.place = .ok (some name, node)) :
    p.pending = .ok (if s.waiting = [] then
      [Pod.entry name node none s.cause.1 s.cause.2 "Pending"]
      else s.waiting.map fun c => Pod.entry name node c.1 c.2.reason c.2.message "Waiting") := by
  let g (c : ContainerStatus) : Option PendingContainer :=
    c.waiting.map fun why => Pod.entry name node c.name why.reason why.message "Waiting"
  have hg : (s.containers.getD []).filterMap g =
    s.waiting.map fun c => Pod.entry name node c.1 c.2.reason c.2.message "Waiting" := by
    simp [PodStatus.waiting, List.map_filterMap, g, Function.comp_def]
  refine bind_eq_of_ok (present_some hs) (bind_eq_of_ok (filterMapM_ok (g := g) ?_ _) ?_)
  · intro c
    cases hc : c.waiting with
    | none => simp [g, hc]; rfl
    | some why =>
      simp only [waitingContainer_eq hplace, g, hc]
      rfl
  · rw [hg]
    by_cases hnone : s.waiting = []
    · simp [hnone, hplace]
      rfl
    · simp [hnone]
      rfl

/-- These entries explain why the pod is pending. -/
theorem explained_entries (hs : p.status = some s) (hat : p.IsAt name node) :
    p.Explained (if s.waiting = [] then [Pod.entry name node none s.cause.1 s.cause.2 "Pending"]
      else s.waiting.map fun c => Pod.entry name node c.1 c.2.reason c.2.message "Waiting") := by
  by_cases hnone : s.waiting = []
  · rw [if_pos hnone]
    have hshows : (Pod.entry name node none s.cause.1 s.cause.2 "Pending").Shows none s.cause.1
      s.cause.2 "Pending" := ⟨rfl, rfl, rfl⟩
    refine ⟨by simp, List.forall_mem_singleton.mpr hat,
      List.forall_mem_singleton.mpr (hshows.reason_ne (by decide)), fun t ht hsome => ?_,
      fun t ht _ => ?_⟩
    · obtain rfl : s = t := Option.some.inj (hs.symm.trans ht)
      exact absurd hnone hsome
    · obtain rfl : s = t := Option.some.inj (hs.symm.trans ht)
      exact ⟨_, _, _, rfl, s.tells_cause, hshows⟩
  · rw [if_neg hnone]
    have hshows : ∀ c, (Pod.entry name node c.1 c.2.reason c.2.message "Waiting").ShowsWaiting c :=
      fun c => ⟨rfl, rfl, rfl⟩
    refine ⟨by simpa using hnone, List.forall_mem_map.mpr fun c _ => hat,
      List.forall_mem_map.mpr fun c _ => (hshows c).reason_ne (by decide), fun t ht _ => ?_,
      fun t ht hempty => ?_⟩
    · obtain rfl : s = t := Option.some.inj (hs.symm.trans ht)
      rw [List.forall₂_map_right_iff]
      exact List.forall₂_same.mpr fun c _ => hshows c
    · obtain rfl : s = t := Option.some.inj (hs.symm.trans ht)
      exact absurd hempty hnone

/-- **Why a well-formed pod is pending can be told, and is explained.** -/
theorem WellFormed.pending_explained (h : p.WellFormed) :
    ∃ entries, p.pending = .ok entries ∧ p.Explained entries := by
  obtain ⟨s, hs⟩ := h.status
  obtain ⟨name, node, hplace, hat⟩ := h.place_eq
  exact ⟨_, pending_eq hs hplace, explained_entries hs hat⟩

end Pod

/-- **So are the pods of a list**, one after the other. -/
theorem pendingOf_explained {pods : List Pod} (h : ∀ p ∈ pods, p.WellFormed) :
    ∃ groups, pendingOf pods = .ok groups.flatten ∧ List.Forall₂ Pod.Explained pods groups := by
  induction pods with
  | nil => exact ⟨[], rfl, .nil⟩
  | cons p rest ih =>
    obtain ⟨hp, hrest⟩ := List.forall_mem_cons.mp h
    obtain ⟨group, hgroup, hexplained⟩ := hp.pending_explained
    obtain ⟨groups, hgroups, hall⟩ := ih hrest
    exact ⟨group :: groups, bind_eq_of_ok hgroup (bind_eq_of_ok hgroups rfl), .cons hexplained hall⟩

/-! ### Diagnostics -/

/-- The state of a deployment with the reasons of its pending pods, as far as an answer about the
pods tells them. -/
def Diagnostic.completed (state : Diagnostic) :
    Except ApiFault (Option (Listing Pod)) → Except Failure Diagnostic
  | .ok pods => do return { state with pending := ← Listing.all pods >>= pendingOf }
  | .error (.rejected ..) => .ok state
  | .error (.unreachable text) => .error (.unreachable text)

/-- The pods that are listed do not change what is told about the deployment. -/
theorem Diagnostic.Tells.completed {state g : Diagnostic} {ns : String} {d : Deployment}
    {reply : Except ApiFault (Option (Listing Pod))} (h : state.Tells ns d)
    (hreply : state.completed reply = .ok g) : g.Tells ns d := by
  cases reply with
  | ok pods =>
    cases hpending : (Listing.all pods >>= pendingOf) with
    | error x =>
      simp only [Diagnostic.completed, hpending] at hreply
      cases hreply
    | ok pending =>
      simp only [Diagnostic.completed, hpending] at hreply
      cases hreply
      exact ⟨h.ns, h.deployment, h.selector, h.desired, h.counts⟩
  | error fault =>
    cases fault with
    | rejected status reason =>
      cases hreply
      exact h
    | unreachable text => cases hreply

/-- After a listing of well-formed pods every pod is explained. -/
theorem Diagnostic.completed_listed (state : Diagnostic) {pods : List Pod}
    (h : ∀ p ∈ pods, p.WellFormed) :
    ∃ g groups, state.completed (.ok (some ⟨some pods⟩)) = .ok g ∧
      List.Forall₂ Pod.Explained pods groups ∧ g.pending = groups.flatten := by
  obtain ⟨groups, hgroups, hexplained⟩ := pendingOf_explained h
  exact ⟨_, groups, bind_eq_of_ok hgroups rfl, hexplained, rfl⟩

/-- A sound answer about the pods leads to a diagnostic. -/
theorem Diagnostic.completed_ok (state : Diagnostic)
    {reply : Except ApiFault (Option (Listing Pod))} (h : SoundListing reply) :
    ∃ g, state.completed reply = .ok g := by
  cases reply with
  | ok pods =>
    obtain ⟨items, rfl, hitems⟩ := h
    obtain ⟨g, -, hg, -⟩ := state.completed_listed hitems
    exact ⟨g, hg⟩
  | error fault =>
    obtain ⟨status, reason, rfl⟩ := h
    exact ⟨state, rfl⟩

/-- A diagnostic takes one listing; a refusal of it is told in the log. -/
theorem leaves_diagnose {ns : String} {d : Deployment} {evs : List (Event τ)}
    {r : Except Failure Diagnostic} (h : (diagnose ns d).Leaves evs r) :
    (∃ x, d.state ns = .error x ∧ evs = [] ∧ r = .error x) ∨
      ∃ state reply time lines, d.state ns = .ok state ∧ r = state.completed reply ∧
        evs = .asked (.api (.listPods ns state.selector "Pending")) reply time :: lines ∧
        ∀ e ∈ lines, ∃ text, e = .logged .warning text := by
  rcases Action.leaves_ofExcept_bind.mp h with ⟨x, hx, rfl, rfl⟩ | ⟨state, hstate, h₁⟩
  · exact .inl ⟨x, hx, rfl, rfl⟩
  obtain ⟨reply, time, lines, h₂, rfl⟩ := Action.leaves_ask_bind.mp h₁
  suffices hend : r = state.completed reply ∧
      ∀ e ∈ lines, ∃ text, e = Event.logged .warning text from
    .inr ⟨state, reply, time, lines, hstate, hend.1, rfl, hend.2⟩
  cases reply with
  | ok pods =>
    rcases Action.leaves_ofExcept_bind.mp h₂ with ⟨x, hx, rfl, rfl⟩ | ⟨pending, hpending, h₃⟩
    · refine ⟨?_, by simp⟩
      simp only [Diagnostic.completed, hx]
      rfl
    · obtain ⟨rfl, rfl⟩ := Action.leaves_pure.mp h₃
      refine ⟨?_, by simp⟩
      simp only [Diagnostic.completed, hpending]
      rfl
  | error fault =>
    cases fault with
    | rejected status reason =>
      obtain ⟨_, h₃, rfl⟩ := Action.leaves_log_bind.mp h₂
      obtain ⟨rfl, rfl⟩ := Action.leaves_pure.mp h₃
      exact ⟨rfl, by simp⟩
    | unreachable text =>
      obtain ⟨rfl, rfl⟩ := Action.leaves_throw.mp h₂
      exact ⟨rfl, by simp⟩

/-- A wait that is over before its deployment is ready fails with the report of the deployment, or
with what the diagnostic fails with. -/
theorem leaves_throwNotReady {ns name : String} {fault : WaitFault} {d : Deployment}
    {evs : List (Event τ)} {r : Except Failure Unit}
    (h : Action.Leaves (do throw (← notReadyFailure ns name fault d)) evs r) :
    ∃ told, (diagnose ns d).Leaves evs told ∧
      ((∃ x, told = .error x ∧ r = .error x) ∨ ∃ g message, told = .ok g ∧
        r = .error (.notReady ⟨message, some g, fault.isCancelled⟩)) := by
  rcases Action.leaves_bind.mp h with ⟨x, h₁, rfl⟩ | ⟨failure, first, rest, h₁, h₂, rfl⟩
  · rcases Action.leaves_bind.mp h₁ with ⟨x, hx, h⟩ | ⟨_, _, _, -, h, -⟩
    · cases h
      exact ⟨_, hx, .inl ⟨_, rfl, rfl⟩⟩
    · cases (Action.leaves_pure.mp h).2
  · rcases Action.leaves_bind.mp h₁ with ⟨_, -, h⟩ | ⟨g, diagnosing, rest', hg, h₃, rfl⟩
    · cases h
    · obtain ⟨rfl, hfailure⟩ := Action.leaves_pure.mp h₃
      obtain ⟨rfl, rfl⟩ := Action.leaves_throw.mp h₂
      cases hfailure
      rw [List.append_nil, List.append_nil]
      exact ⟨_, hg, .inr ⟨g, _, rfl, rfl⟩⟩

end IngressBench
