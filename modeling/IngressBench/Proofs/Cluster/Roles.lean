import IngressBench.Cluster.Role
import Mathlib.Data.List.Count
import Mathlib.Data.List.Forall2
import Mathlib.Data.List.Induction

/-!
How many nodes have which role. The roles that labels name are what stands behind the start of a label
of a role (`mem_rolesOf_iff`), so the count of nodes is, for each role, the number of the nodes that
carry its label (`countNodes_counts`). Hence the count does not depend on the order of the nodes, nor
on anything but the names of the labels of roles (`Counts.of_alike`).
-/
namespace IngressBench

variable {labels others : Labels} {name role : String} {nodes : List Labels}

/-! ### Roles of one node -/

theorem behind?_eq_some_iff {start s rest : List Char} :
    behind? start s = some rest ↔ s = start ++ rest := by
  induction start generalizing s with
  | nil => simp [behind?]
  | cons c start ih =>
    cases s with
    | nil => simp [behind?]
    | cons d s =>
      unfold behind?
      split
      · rename_i hcd
        subst hcd
        simpa using ih
      · rename_i hcd
        simp [Ne.symm hcd]

/-- The label of a role. -/
def labelOfRole (role : String) : String :=
  roleLabel ++ role

/-- The labels name the role, with whatever value. -/
def Labels.HasRole (labels : Labels) (role : String) : Prop :=
  labelOfRole role ∈ labels.map Prod.fst

instance (labels : Labels) (role : String) : Decidable (labels.HasRole role) :=
  inferInstanceAs (Decidable (labelOfRole role ∈ labels.map Prod.fst))

theorem behind?_roleLabel_eq_some_iff {text : String} :
    (behind? roleLabel.toList text.toList).map String.ofList = some role ↔
      text = labelOfRole role := by
  constructor
  · intro h
    obtain ⟨rest, hrest, rfl⟩ := Option.map_eq_some_iff.mp h
    apply String.toList_injective
    simpa [labelOfRole] using behind?_eq_some_iff.mp hrest
  · rintro rfl
    have hbehind : behind? roleLabel.toList (labelOfRole role).toList = some role.toList :=
      behind?_eq_some_iff.mpr (by simp [labelOfRole])
    simp [hbehind]

/-- **A role is one that a label names.** -/
theorem mem_rolesOf_iff : role ∈ rolesOf labels ↔ labels.HasRole role := by
  unfold rolesOf Labels.HasRole
  rw [List.mem_filterMap, List.mem_map]
  refine exists_congr fun label => and_congr_right fun _ => ?_
  exact behind?_roleLabel_eq_some_iff

/-! ### Counting -/

/-- How many nodes there are, and how many of them have which role. The role of those that run the
cluster has an old and a new name. -/
structure Counts (nodes : List Labels) (n : NodeCount) : Prop where
  total : n.total = nodes.length
  masters : n.masters =
    nodes.countP fun labels => labels.HasRole "master" ∨ labels.HasRole "control-plane"
  workers : n.workers = nodes.countP (·.HasRole "worker")
  infra : n.infra = nodes.countP (·.HasRole "infra")

theorem countP_concat (P : Labels → Prop) [DecidablePred P] (nodes : List Labels)
    (labels : Labels) :
    (nodes ++ [labels]).countP (P ·) = nodes.countP (P ·) + oneIf (decide (P labels)) := by
  rw [List.countP_append, List.countP_singleton]
  rfl

/-- One more node counts once for each of its roles. -/
theorem Counts.add {n : NodeCount} (h : Counts nodes n) (labels : Labels) :
    Counts (nodes ++ [labels]) (n.add (rolesOf labels)) where
  total := by simp [NodeCount.add, h.total]
  masters := by
    rw [countP_concat fun labels : Labels =>
      labels.HasRole "master" ∨ labels.HasRole "control-plane", ← h.masters]
    simp [NodeCount.add, mem_rolesOf_iff]
  workers := by
    rw [countP_concat (·.HasRole "worker"), ← h.workers]
    simp [NodeCount.add, mem_rolesOf_iff]
  infra := by
    rw [countP_concat (·.HasRole "infra"), ← h.infra]
    simp [NodeCount.add, mem_rolesOf_iff]

/-- **The count of nodes tells how many have which role.** -/
theorem countNodes_counts (nodes : List Labels) : Counts nodes (countNodes nodes) := by
  induction nodes using List.reverseRecOn with
  | nil => exact ⟨rfl, rfl, rfl, rfl⟩
  | append_singleton nodes labels ih =>
    have hstep : countNodes (nodes ++ [labels]) = (countNodes nodes).add (rolesOf labels) := by
      simp [countNodes]
    rw [hstep]
    exact ih.add labels

/-! ### What does not count -/

/-- The labels are the same but for their order, their values, and labels of other kinds. -/
def Labels.SameRoles (labels others : Labels) : Prop :=
  ∀ name, name.startsWith roleLabel = true →
    (name ∈ labels.map Prod.fst ↔ name ∈ others.map Prod.fst)

/-- The nodes are the same but for their order and for labels that do not count. -/
def Alike (nodes nodes' : List Labels) : Prop :=
  ∃ reordered, nodes.Perm reordered ∧ List.Forall₂ Labels.SameRoles reordered nodes'

theorem Labels.SameRoles.hasRole_iff (h : labels.SameRoles others) (role : String) :
    labels.HasRole role ↔ others.HasRole role := by
  refine h _ ?_
  rw [String.startsWith_string_iff]
  simp [labelOfRole]

/-- **The count of alike nodes is the same.** -/
theorem Counts.of_alike {nodes nodes' : List Labels} {n : NodeCount} (h : Counts nodes n)
    (halike : Alike nodes nodes') : Counts nodes' n := by
  obtain ⟨reordered, hperm, hsame⟩ := halike
  have hcount : ∀ (P : Labels → Prop) [DecidablePred P],
      (∀ labels others, Labels.SameRoles labels others → (P labels ↔ P others)) →
      nodes.countP (P ·) = nodes'.countP (P ·) := by
    intro P _ hP
    rw [hperm.countP_eq]
    clear hperm
    induction hsame with
    | nil => rfl
    | cons hhead _ ih =>
      rw [List.countP_cons, List.countP_cons, ih]
      simp [hP _ _ hhead]
  refine ⟨h.total.trans (hperm.length_eq.trans hsame.length_eq), h.masters.trans (hcount _ ?_),
    h.workers.trans (hcount _ ?_), h.infra.trans (hcount _ ?_)⟩
  · exact fun _ _ hroles => or_congr (hroles.hasRole_iff _) (hroles.hasRole_iff _)
  · exact fun _ _ hroles => hroles.hasRole_iff _
  · exact fun _ _ hroles => hroles.hasRole_iff _

/-- No role has more nodes than there are. -/
theorem Counts.le_total {n : NodeCount} (h : Counts nodes n) :
    n.masters ≤ n.total ∧ n.workers ≤ n.total ∧ n.infra ≤ n.total := by
  rw [h.total, h.masters, h.workers, h.infra]
  exact ⟨List.countP_le_length, List.countP_le_length, List.countP_le_length⟩

/-- The nodes determine their count. -/
theorem Counts.unique {n n' : NodeCount} (h : Counts nodes n) (h' : Counts nodes n') : n = n' := by
  have htotal := h.total.trans h'.total.symm
  have hmasters := h.masters.trans h'.masters.symm
  have hworkers := h.workers.trans h'.workers.symm
  have hinfra := h.infra.trans h'.infra.symm
  cases n
  cases n'
  exact NodeCount.mk.injEq .. ▸ ⟨htotal, hmasters, hworkers, hinfra⟩

end IngressBench
