import IngressBench.Proofs.Readiness.WellFormed
import IngressBench.Proofs.Tuning.Options
import Mathlib.Data.List.ReduceOption
import Mathlib.Data.String.Basic

/-!
Selectors and the labels that they are made of. A selector shows the labels of a map in the order of
their names, whatever their order in the map (`sortedLabels_eq_of_perm`). Labels that a cluster admits
have no separators where these would be taken for one, so that a selector can be read back: its parts
between the commas, each divided at its first `=`, are the labels (`Labels.told_selectorText`). So the
selector of a deployment determines which labels select its pods (`Deployment.selector_determines`).
-/
namespace IngressBench

variable {labels others : Labels} {label : String × String}

/-! ### Sorted labels -/

/-- Labels under different names, as those of a map are. -/
def Labels.Distinct (labels : Labels) : Prop :=
  (labels.map Prod.fst).Nodup

instance (labels : Labels) : Decidable labels.Distinct :=
  inferInstanceAs (Decidable (labels.map Prod.fst).Nodup)

theorem sortedLabels_perm (labels : Labels) : (sortedLabels labels).Perm labels :=
  List.mergeSort_perm labels _

/-- Sorted labels of a map stand in strictly increasing order of their names. -/
theorem pairwise_sortedLabels (h : labels.Distinct) :
    (sortedLabels labels).Pairwise fun a b => a.1 < b.1 := by
  have hsorted : (sortedLabels labels).Pairwise fun a b => a.1 ≤ b.1 := by
    refine (List.pairwise_mergeSort (fun a b c hab hbc => ?_) (fun a b => ?_) labels).imp
      of_decide_eq_true
    · simp only [decide_eq_true_eq] at hab hbc ⊢
      exact hab.trans hbc
    · simpa using le_total a.1 b.1
  have hdistinct : (sortedLabels labels).Pairwise fun a b => a.1 ≠ b.1 :=
    List.pairwise_map.mp (((sortedLabels_perm labels).map Prod.fst).nodup_iff.mpr h)
  exact (hsorted.and hdistinct).imp fun hab => lt_of_le_of_ne hab.1 hab.2

/-- **Sorting forgets the order of a map.** -/
theorem sortedLabels_eq_of_perm (h : labels.Distinct) (hperm : labels.Perm others) :
    sortedLabels labels = sortedLabels others := by
  have hothers : others.Distinct := (hperm.map Prod.fst).nodup_iff.mp h
  refine List.Perm.eq_of_pairwise (fun a b _ _ hab hba => absurd hba hab.asymm)
    (pairwise_sortedLabels h) (pairwise_sortedLabels hothers) ?_
  exact (sortedLabels_perm labels).trans (hperm.trans (sortedLabels_perm others).symm)

/-! ### Reading a selector -/

/-- A label that a cluster admits: no separator stands in its name, and no comma in its value. -/
structure Admitted (label : String × String) : Prop where
  name_comma : ',' ∉ label.1.toList
  name_equals : '=' ∉ label.1.toList
  value_comma : ',' ∉ label.2.toList

/-- The label that a part of a selector tells: its name in front of the first `=`, and its value
behind it. -/
def labelOf? (part : List Char) : Option (String × String) :=
  (Profile.halves? part).map fun (name, value) => (String.ofList name, String.ofList value)

/-- What the parts of a selector between its commas tell. -/
def selectorParts (selector : String) : List (Option (String × String)) :=
  (selector.toList.splitOn ',').map labelOf?

/-- The text of a label in a selector. -/
def labelText (label : String × String) : String :=
  label.1 ++ "=" ++ label.2

theorem selectorText_eq (labels : Labels) :
    selectorText labels = ",".intercalate ((sortedLabels labels).map labelText) := rfl

theorem selectorText_nil : selectorText [] = "" := by
  simp [selectorText, sortedLabels]

theorem labelOf?_labelText (h : Admitted label) : labelOf? (labelText label).toList = some label := by
  have htext : (labelText label).toList = label.1.toList ++ '=' :: label.2.toList := by
    simp [labelText]
  unfold labelOf?
  rw [htext, Profile.halves?_append h.name_equals]
  simp

theorem comma_not_mem_labelText (h : Admitted label) : ',' ∉ (labelText label).toList := by
  simp [labelText, h.name_comma, h.value_comma]

/-- The parts of a selector are its labels, one for one. -/
theorem selectorParts_selectorText (h : ∀ label ∈ labels, Admitted label) (hne : labels ≠ []) :
    selectorParts (selectorText labels) = (sortedLabels labels).map some := by
  have hsorted : ∀ label ∈ sortedLabels labels, Admitted label := fun label hmem =>
    h label ((sortedLabels_perm labels).mem_iff.mp hmem)
  have hsome : sortedLabels labels ≠ [] := fun hnil =>
    hne (List.nil_perm.mp (hnil ▸ sortedLabels_perm labels))
  have hcomma : ∀ part ∈ ((sortedLabels labels).map labelText).map String.toList, ',' ∉ part := by
    intro part hpart
    obtain ⟨text, htext, rfl⟩ := List.mem_map.mp hpart
    obtain ⟨label, hmem, rfl⟩ := List.mem_map.mp htext
    exact comma_not_mem_labelText (hsorted label hmem)
  have hsplit : (selectorText labels).toList.splitOn ',' =
      ((sortedLabels labels).map labelText).map String.toList := by
    rw [selectorText_eq, String.toList_intercalate]
    exact List.splitOn_intercalate ',' hcomma (by simpa using hsome)
  unfold selectorParts
  rw [hsplit, List.map_map, List.map_map]
  exact List.map_congr_left fun label hmem => labelOf?_labelText (hsorted label hmem)

/-- A selector tells the labels of a map: in strictly increasing order of their names, one in each of
its parts, and none besides. The empty selector has one part, which tells nothing. -/
structure Labels.Told (labels : Labels) (selector : String) : Prop where
  pairs : (selectorParts selector).reduceOption.Perm labels
  ordered : (selectorParts selector).reduceOption.Pairwise fun a b => a.1 < b.1
  each : labels ≠ [] → ∀ part ∈ selectorParts selector, part.isSome = true

/-- **A selector can be read back.** -/
theorem Labels.told_selectorText (h : labels.Distinct) (hlabels : ∀ label ∈ labels, Admitted label) :
    labels.Told (selectorText labels) := by
  by_cases hne : labels = []
  · subst hne
    have hparts : selectorParts (selectorText []) = [none] := by
      rw [selectorText_nil]
      rfl
    refine ⟨?_, ?_, fun hnil => absurd rfl hnil⟩
    · rw [hparts]
      exact List.Perm.refl _
    · rw [hparts]
      exact List.Pairwise.nil
  · have hparts := selectorParts_selectorText hlabels hne
    have hback : (selectorParts (selectorText labels)).reduceOption = sortedLabels labels := by
      rw [hparts]
      simp [List.reduceOption, List.filterMap_map]
    refine ⟨?_, ?_, fun _ part hpart => ?_⟩
    · rw [hback]
      exact sortedLabels_perm labels
    · rw [hback]
      exact pairwise_sortedLabels h
    · rw [hparts] at hpart
      obtain ⟨label, -, rfl⟩ := List.mem_map.mp hpart
      rfl

/-! ### Deployments -/

/-- The deployment selects its pods by these labels; an absent map has none. -/
def Deployment.SelectsBy (d : Deployment) (labels : Labels) : Prop :=
  ∃ spec, d.spec = some spec ∧
    (spec.selector = some (some labels) ∨ spec.selector = some none ∧ labels = [])

theorem Deployment.SelectsBy.selector_eq {d : Deployment} (h : d.SelectsBy labels) :
    d.selector = .ok (selectorText labels) := by
  obtain ⟨spec, hspec, hselector | ⟨hselector, rfl⟩⟩ := h
  · exact bind_eq_of_ok (present_some hspec) (bind_eq_of_ok (present_some hselector) rfl)
  · exact bind_eq_of_ok (present_some hspec) (bind_eq_of_ok (present_some hselector) rfl)

/-- **The selector determines the labels.** Every deployment with a map of labels, given or absent,
has a selector, which is empty where the map is and does not depend on the order of the map. Where a
cluster admits the labels the selector tells them, so that two deployments have the same selector
exactly when their maps are the same. -/
theorem Deployment.selector_determines {d d' : Deployment} {labels labels' : Labels}
    (hd : d.SelectsBy labels) (hd' : d'.SelectsBy labels') (hdistinct : labels.Distinct)
    (hdistinct' : labels'.Distinct) :
    ∃ selector selector', d.selector = .ok selector ∧ d'.selector = .ok selector' ∧
      (labels = [] → selector = "") ∧
      (labels.Perm labels' → selector = selector') ∧
      ((∀ label ∈ labels, Admitted label) → labels.Told selector ∧
        ((∀ label ∈ labels', Admitted label) → (selector = selector' ↔ labels.Perm labels'))) := by
  have hsame : labels.Perm labels' → selectorText labels = selectorText labels' := fun hperm => by
    rw [selectorText_eq, selectorText_eq, sortedLabels_eq_of_perm hdistinct hperm]
  refine ⟨selectorText labels, selectorText labels', hd.selector_eq, hd'.selector_eq, ?_, hsame,
    fun hlabels => ⟨Labels.told_selectorText hdistinct hlabels, fun hlabels' => ⟨fun h => ?_, hsame⟩⟩⟩
  · rintro rfl
    exact selectorText_nil
  · have htold := (Labels.told_selectorText hdistinct hlabels).pairs
    have htold' := (Labels.told_selectorText hdistinct' hlabels').pairs
    rw [← h] at htold'
    exact htold.symm.trans htold'

namespace Sample

/-- A deployment that selects its pods by labels. -/
def selecting (labels : Option Labels) : Deployment where
  spec := some { selector := some labels }

end Sample

/-- A value that is empty and one with an equals sign in it, in both orders. -/
theorem Deployment.selector_determines_reordered :
    let labels : Labels := [("tier", "a=b"), ("app", "")]
    let labels' : Labels := [("app", ""), ("tier", "a=b")]
    let d := Sample.selecting (some labels)
    let d' := Sample.selecting (some labels')
    d.SelectsBy labels ∧ d'.SelectsBy labels' ∧ labels.Distinct ∧ labels'.Distinct ∧
    (∀ label ∈ labels, Admitted label) ∧ d.selector = .ok "app=,tier=a=b" ∧
    ∃ selector, d.selector = .ok selector ∧ d'.selector = .ok selector ∧ labels.Told selector := by
  intro labels labels' d d'
  have hd : d.SelectsBy labels := ⟨_, rfl, .inl rfl⟩
  have hd' : d'.SelectsBy labels' := ⟨_, rfl, .inl rfl⟩
  have hdistinct : labels.Distinct := by decide
  have hdistinct' : labels'.Distinct := by decide
  have hadmitted : ∀ label ∈ labels, Admitted label := by
    refine List.forall_mem_cons.mpr ⟨?_, List.forall_mem_singleton.mpr ?_⟩
    · exact ⟨by decide, by decide, by decide⟩
    · exact ⟨by decide, by decide, by decide⟩
  have htext : d.selector = .ok "app=,tier=a=b" := by
    have hsorted : sortedLabels labels = labels' :=
      (sortedLabels_eq_of_perm hdistinct (List.Perm.swap ..)).trans
        (List.mergeSort_of_pairwise (by decide +kernel))
    rw [hd.selector_eq, selectorText_eq, hsorted]
    rfl
  obtain ⟨selector, selector', h, h', -, hsame, htold⟩ :=
    Deployment.selector_determines hd hd' hdistinct hdistinct'
  obtain rfl := hsame (List.Perm.swap ..)
  exact ⟨hd, hd', hdistinct, hdistinct', hadmitted, htext, selector, h, h', (htold hadmitted).1⟩

end IngressBench
