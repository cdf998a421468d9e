import IngressBench.Proofs.Run.Handling
import IngressBench.Proofs.Run.Sample
import IngressBench.Proofs.Run.Signals

/-!
What a run removes at its end. A run that cleans up and comes to its end has deleted everything that
it created (`start_cleans_up`); a helper that ends the run with the verdict of a failed comparison
leaves everything where it is (`verdict_of_driver_keeps`).

Whatever is deleted on its own was created once by the same run, or found there. So a run that shares
its namespace deletes only what it created exactly when it found none of what it deletes
(`start_deletes_created_iff`), and it can delete what was there before (`deletes_found_deployment`).
-/
namespace IngressBench

variable {τ : Type}

/-! ### One deed for every object -/

/-- Where no object comes twice, the deeds about an object are one deed. -/
theorem filter_object_eq {deeds : List Deed} {deed : Deed} (h : (objectsOf deeds).Nodup)
    (hdeed : deed ∈ deeds) : deeds.filter (fun d => d.object = deed.object) = [deed] := by
  induction deeds with
  | nil => cases hdeed
  | cons first rest ih =>
    obtain ⟨hfirst, hrest⟩ := List.nodup_cons.mp h
    rcases List.mem_cons.mp hdeed with rfl | hdeed
    · have hnone : rest.filter (fun d => d.object = deed.object) = [] := by
        refine List.filter_eq_nil_iff.mpr fun d hd heq => hfirst ?_
        exact List.mem_map.mpr ⟨d, hd, of_decide_eq_true heq⟩
      simp [hnone]
    · have hne : first.object ≠ deed.object := fun heq =>
        hfirst (List.mem_map.mpr ⟨deed, hdeed, heq.symm⟩)
      simp [hne, ih hrest hdeed]

namespace Assets

theorem insideRefs_kind (ns : String) : ∀ object ∈ insideRefs ns, object.kind ≠ .ns := by
  simp [insideRefs, inside, routes, Termination.all, serverDeployment, roleBinding,
    clientDeployment, service, route, deployment]

theorem bindingRef_mem (ns : String) : bindingRef ns ∈ insideRefs ns :=
  List.mem_cons_of_mem _ List.mem_cons_self

/-- The objects of a benchmark are all different. -/
theorem insideRefs_nodup (ns : String) : (nsRef ns :: insideRefs ns).Nodup := by
  refine List.nodup_cons.mpr ⟨fun h => insideRefs_kind ns _ h rfl, ?_⟩
  simp [insideRefs, inside, routes, Termination.all, serverDeployment, roleBinding,
    clientDeployment, service, route, deployment, routeName, serverName, clientName]
  decide

end Assets

/-! ### What the last creation of an object was answered -/

section
variable {ns : String} {existed : Bool} {deeds : List Deed}

theorem Deployed.objects (h : Deployed ns existed deeds) :
    objectsOf deeds = Assets.nsRef ns :: Assets.insideRefs ns := by
  obtain ⟨answer, rest, rfl, -, hrest, -⟩ := h
  exact congrArg (Assets.nsRef ns :: ·) hrest

/-- Every object was created once, or found there. -/
theorem Deployed.once (h : Deployed ns existed deeds) {object : ObjectRef}
    (hobject : object ∈ Assets.insideRefs ns) :
    ∃ deed : Deed, deed.object = object ∧ deed.IsTold ∧
      deeds.filter (fun d => d.object = object) = [deed] := by
  have hnodup : (objectsOf deeds).Nodup := h.objects ▸ Assets.insideRefs_nodup ns
  obtain ⟨answer, rest, rfl, -, hrest, htold⟩ := h
  rw [← hrest] at hobject
  obtain ⟨deed, hdeed, rfl⟩ := List.mem_map.mp hobject
  exact ⟨deed, rfl, htold deed hdeed, filter_object_eq hnodup (List.mem_cons_of_mem _ hdeed)⟩

/-- What the creation of the namespace was answered tells whether it was there. -/
theorem Deployed.tells (h : Deployed ns existed deeds) {answer : Except ApiFault Unit}
    (hmem : ⟨Assets.nsRef ns, answer⟩ ∈ deeds) : Tells existed answer := by
  obtain ⟨first, rest, rfl, htells, hrest, -⟩ := h
  rcases List.mem_cons.mp hmem with heq | hmem
  · obtain ⟨-, rfl⟩ := Deed.mk.inj heq
    exact htells
  · have hinside : Assets.nsRef ns ∈ Assets.insideRefs ns :=
      hrest ▸ List.mem_map.mpr ⟨_, hmem, rfl⟩
    exact absurd rfl (Assets.insideRefs_kind ns _ hinside)

/-- A namespace that was not there was created. -/
theorem Deployed.made (h : Deployed ns false deeds) : ⟨Assets.nsRef ns, .ok ()⟩ ∈ deeds := by
  obtain ⟨answer, rest, rfl, htells, -, -⟩ := h
  cases answer with
  | ok _ => exact List.mem_cons_self
  | error fault => exact absurd htells.1 Bool.false_ne_true

end

/-! ### What a start removes -/

/-- A row in which every creation comes before every deletion. -/
def CreatesFirst (evs : List (Event τ)) : Prop :=
  ∃ first rest, evs = first ++ rest ∧ deletions first = [] ∧ creations rest = []

namespace Plan

variable [TimeScale τ] {p : Plan τ} {evs : List (Event τ)} {r : Except Failure Unit}
  {s' : RunState}

/-- What a start that comes to remove its objects does: it has deployed them all, and deletes them by
the plan for its namespace. When it is done the plan is done. -/
structure Removes (p : Plan τ) (evs : List (Event τ)) (s' : RunState) (existed : Bool) : Prop where
  clean : p.cleanup = true
  closed : s'.phase.isOpen = false
  deployed : Deployed p.settings.ns existed (creations evs)
  planned : objectsOf (deletions evs) <+: Assets.removal existed p.settings.ns
  done : s'.phase = .done → deletions evs = gone (Assets.removal existed p.settings.ns) ∧
    (existed = false → SeenGone p.settings.ns evs)

theorem Handling.createsFirst (h : Handling p evs r s') : CreatesFirst evs := by
  cases h with
  | unconnected hlearns hphase =>
    exact ⟨_, [], (List.append_nil _).symm, (untouched_of_learns hlearns).2, rfl⟩
  | undeployed hlearns hdeploying hphase =>
    have hdeletes := deploy_deletes hdeploying
    refine ⟨_, [], (List.append_nil _).symm, ?_, rfl⟩
    simp [(untouched_of_learns hlearns).2, hdeletes]
  | kept hbefore hdeploying hafter hdeployed hkeep =>
    have hdeletes := deploy_deletes hdeploying
    exact ⟨_, [], (List.append_nil _).symm, by simp [hbefore.2, hdeletes, hafter.2], rfl⟩
  | @removed before deploying after removing _ _ _ _ _ hbefore hdeploying hafter hremoving _ =>
    have hdeletes := deploy_deletes hdeploying
    refine ⟨before ++ (deploying ++ after), removing, by simp, ?_, ?_⟩
    · simp [hbefore.2, hdeletes, hafter.2]
    · exact creations_of_removes (asks_removeAssets _ _ _ _ _ _ hremoving)

/-- **A start deletes nothing, or removes what it has deployed.** -/
theorem Handling.removes (h : Handling p evs r s') :
    deletions evs = [] ∧ (p.cleanup = false ∨ (∃ x, r = .error x) ∧ s'.phase.isOpen = true) ∨
      ∃ existed, Removes p evs s' existed := by
  cases h with
  | unconnected hlearns hphase =>
    exact .inl ⟨(untouched_of_learns hlearns).2, .inr ⟨⟨_, rfl⟩, by rw [hphase]; rfl⟩⟩
  | undeployed hlearns hdeploying hphase =>
    refine .inl ⟨?_, .inr ⟨⟨_, rfl⟩, by rw [hphase]; rfl⟩⟩
    simp [(untouched_of_learns hlearns).2, deploy_deletes hdeploying]
  | kept hbefore hdeploying hafter hdeployed hkeep =>
    exact .inl ⟨by simp [hbefore.2, deploy_deletes hdeploying, hafter.2], hkeep⟩
  | @removed before deploying after removing existed _ _ _ hclean hbefore hdeploying hafter
      hremoving hphase =>
    obtain ⟨hplanned, hdone⟩ := removeAssets_plan hremoving
    have hcreations : creations (before ++ (deploying ++ (after ++ removing))) =
        creations deploying := by
      simp [hbefore.1, hafter.1, creations_of_removes (asks_removeAssets _ _ _ _ _ _ hremoving)]
    have hdeletions : deletions (before ++ (deploying ++ (after ++ removing))) =
        deletions removing := by
      simp [hbefore.2, hafter.2, deploy_deletes hdeploying]
    refine .inr ⟨existed, hclean, ?_, hcreations ▸ deploy_creates hdeploying,
      hdeletions ▸ hplanned, fun hs => ?_⟩
    · rcases hphase with ⟨hs, -⟩ | ⟨hs, -⟩ <;> rw [hs] <;> rfl
    · rcases hphase with ⟨hindexed, -⟩ | ⟨-, rfl⟩
      · rw [hs] at hindexed
        cases hindexed
      · refine ⟨hdeletions ▸ hdone rfl, fun hexisted => ?_⟩
        subst hexisted
        exact (((removeAssets_awaits hremoving).after after).after deploying).after before

/-! ### Cleaning up -/

/-- Nothing is left of the objects of a benchmark. -/
structure CleanedUp (ns : String) (trace : List (Event τ)) : Prop where
  /-- The namespace and all that stands behind it was created, or found there, and all of this comes
  before anything is deleted. -/
  deployed : (∃ existed, Deployed ns existed (creations trace)) ∧ CreatesFirst trace
  /-- If the namespace was there before, it stays, and every object behind it is deleted by exactly
  one call, which succeeds. -/
  shared : ∀ fault, ⟨Assets.nsRef ns, .error fault⟩ ∈ creations trace →
    (∀ deed ∈ deletions trace, deed.object.kind ≠ .ns) ∧
    ∀ deed ∈ creations trace, deed.object ≠ Assets.nsRef ns →
      (deletions trace).filter (fun d => d.object = deed.object) = [⟨deed.object, .ok ()⟩]
  /-- If the benchmark created the namespace, it is deleted once and seen gone, and of the objects
  behind it only the binding, which is not inside it, is deleted on its own. -/
  own : ⟨Assets.nsRef ns, .ok ()⟩ ∈ creations trace →
    deletions trace = gone [Assets.nsRef ns, Assets.bindingRef ns] ∧ SeenGone ns trace
  /-- The binding of the clients' role is deleted once, and last. -/
  last : ∃ others, deletions trace = others ++ [⟨Assets.bindingRef ns, .ok ()⟩] ∧
    Assets.bindingRef ns ∉ objectsOf others

/-- What cleaning up means for a start: for the events that it leaves, what it ends with, and its
last state. -/
structure CleansUp (p : Plan τ) (trace : List (Event τ)) (outcome : Except Failure Unit)
    (final : RunState) : Prop where
  /-- A start that cleans up, and ends well or with a verdict of its own that a comparison failed,
  leaves nothing behind. -/
  removes : p.cleanup = true → (outcome = .ok () ∨
    outcome = .error .comparison ∧ ∀ e ∈ trace, ¬ e.Raises .comparison) →
      CleanedUp p.settings.ns trace
  /-- A start that fails before its sink is closed, or is to keep its objects, deletes nothing. -/
  keeps : p.cleanup = false ∨ (∃ x, outcome = .error x) ∧ final.phase.isOpen = true →
    deletions trace = []

omit [TimeScale τ] in
/-- A removal that is done has cleaned up. -/
theorem Removes.cleanedUp {existed : Bool} (h : Removes p evs s' existed)
    (hfirst : CreatesFirst evs) (hdone : s'.phase = .done) : CleanedUp p.settings.ns evs := by
  obtain ⟨hdeletions, hseen⟩ := h.done hdone
  have hdeployed := h.deployed
  refine ⟨⟨⟨existed, hdeployed⟩, hfirst⟩, fun fault hfault => ?_, fun hmade => ?_, ?_⟩
  · -- The plan for a shared namespace names what was created inside it, each object once.
    obtain ⟨rfl, -⟩ := hdeployed.tells hfault
    have hperm := Assets.removal_perm p.settings.ns
    rw [hdeletions]
    refine ⟨fun deed hdeed => ?_, fun deed hdeed hother => ?_⟩
    · obtain ⟨object, hobject, rfl⟩ := List.mem_map.mp hdeed
      exact Assets.insideRefs_kind _ _ (hperm.mem_iff.mp hobject)
    · have hinside : deed.object ∈ Assets.insideRefs p.settings.ns := by
        have hmem : deed.object ∈ objectsOf (creations evs) := List.mem_map.mpr ⟨deed, hdeed, rfl⟩
        rw [hdeployed.objects] at hmem
        exact (List.mem_cons.mp hmem).resolve_left hother
      have hgone : (⟨deed.object, .ok ()⟩ : Deed) ∈ gone (Assets.removal true p.settings.ns) :=
        List.mem_map.mpr ⟨_, hperm.mem_iff.mpr hinside, rfl⟩
      refine filter_object_eq ?_ hgone
      rw [objectsOf_gone]
      exact hperm.nodup_iff.mpr (List.nodup_cons.mp (Assets.insideRefs_nodup _)).2
  · obtain rfl : existed = false := hdeployed.tells hmade
    exact ⟨hdeletions, hseen rfl⟩
  · refine ⟨gone (if existed then Assets.removable p.settings.ns else [Assets.nsRef p.settings.ns]),
      by rw [hdeletions, Assets.removal, gone_append]; rfl, ?_⟩
    rw [objectsOf_gone]
    have hnodup := (Assets.removal_perm p.settings.ns).nodup_iff.mpr
      (List.nodup_cons.mp (Assets.insideRefs_nodup _)).2
    cases existed with
    | true => exact fun hmem => (List.nodup_append.mp hnodup).2.2 _ hmem _ List.mem_cons_self rfl
    | false => simp [Assets.bindingRef, Assets.nsRef]

/-- **A start that comes to its end has removed what it deployed**, and one that fails early removes
nothing. -/
theorem start_cleans_up {σ : Type} (p : Plan τ) (hp : p.team.Usual) (w : World τ σ) (now : τ)
    (world : σ) (session : Option Session) (sink : Option Sink) :
    let run := w.trace now world (p.start.perform (.fresh session sink))
    CleansUp p run.2 run.1.1 run.1.2 := by
  intro run
  have hleaves : p.start.Leaves (.fresh session sink) run.2 run.1.1 run.1.2 :=
    w.trace_leaves now world _
  have hhandles := start_handles hp hleaves
  refine ⟨fun hclean hends => ?_, fun hkeep => ?_⟩
  · have hended := endsRun_start hp _ _ _ _ (show Phase.init ≠ .done by decide) hleaves
    have hdone := hended.done_iff.mpr hends
    rcases hhandles.removes with ⟨-, hkept | ⟨-, hopen⟩⟩ | ⟨existed, hremoves⟩
    · rw [hclean] at hkept
      cases hkept
    · rw [hdone] at hopen
      cases hopen
    · exact hremoves.cleanedUp hhandles.createsFirst hdone
  · rcases hhandles.removes with ⟨hnone, -⟩ | ⟨existed, hremoves⟩
    · exact hnone
    · rcases hkeep with hkept | ⟨-, hopen⟩
      · rw [hremoves.clean] at hkept
        cases hkept
      · rw [hremoves.closed] at hopen
        cases hopen

/-- In a shared namespace all eight objects behind it are deleted one by one. -/
theorem start_cleans_up_shared :
    let p := Sample.plan [{ serverReplicas := 2 }]
    let run := (Sample.shared []).trace 0 {} (p.start.perform (.fresh none none))
    p.team.Usual ∧ CleansUp p run.2 run.1.1 run.1.2 ∧ CleanedUp p.settings.ns run.2 ∧
      (deletions run.2).length = 8 :=
  have hcleans := start_cleans_up _ Sample.team_usual (Sample.shared []) 0 {} none none
  ⟨Sample.team_usual, hcleans, hcleans.removes rfl (.inl (by decide +kernel)), by decide +kernel⟩

/-- **A helper that ends the run with the verdict of a failed comparison leaves everything where it
is**, although the run cleans up. -/
theorem verdict_of_driver_keeps :
    let p := Sample.plan [{ serverReplicas := 2 }]
    let run := Sample.condemning.trace 0 {} (p.start.perform (.fresh none none))
    p.cleanup = true ∧ run.1.1 = .error .comparison ∧ (creations run.2).length = 9 ∧
      ¬ CleanedUp p.settings.ns run.2 := by
  intro p run
  refine ⟨rfl, by decide +kernel, by decide +kernel, fun h => ?_⟩
  obtain ⟨others, hlast, -⟩ := h.last
  have hnone : deletions run.2 = [] := by decide +kernel
  simp [hnone] at hlast

/-! ### Deleting only what was created -/

/-- Every object that is deleted on its own was created by the same row. -/
def DeletesCreated (trace : List (Event τ)) : Prop :=
  ∀ deed ∈ deletions trace, deed.object.kind ≠ .ns → ⟨deed.object, .ok ()⟩ ∈ creations trace

instance (trace : List (Event τ)) : Decidable (DeletesCreated trace) :=
  inferInstanceAs (Decidable (∀ deed ∈ deletions trace,
    deed.object.kind ≠ .ns → ⟨deed.object, .ok ()⟩ ∈ creations trace))

/-- What a start knows about the objects that it deletes: for the events that it leaves, and its last
state. -/
structure DeletesKnown (ns : String) (trace : List (Event τ)) (final : RunState) : Prop where
  first : CreatesFirst trace
  /-- An object that is deleted on its own was asked to be created once before, and it was created or
  found there. -/
  known : ∀ deed ∈ deletions trace, deed.object.kind ≠ .ns →
    ∃ made : Deed, made.object = deed.object ∧ made.IsTold ∧
      (creations trace).filter (fun d => d.object = deed.object) = [made]
  /-- So only created objects are deleted exactly when none of those that are deleted was found. -/
  created_iff : DeletesCreated trace ↔ ∀ deed ∈ deletions trace, deed.object.kind ≠ .ns →
    ∀ fault, ⟨deed.object, .error fault⟩ ∉ creations trace
  /-- In a start that is done these are the binding and, in a shared namespace, all objects behind
  it. -/
  done_iff : deletions trace ≠ [] → final.phase = .done →
    (DeletesCreated trace ↔ ⟨Assets.bindingRef ns, .ok ()⟩ ∈ creations trace ∧
      (⟨Assets.nsRef ns, .ok ()⟩ ∈ creations trace ∨
        ∀ object ∈ Assets.insideRefs ns, ⟨object, .ok ()⟩ ∈ creations trace))

omit [TimeScale τ] in
/-- What a removal deletes on its own stands behind the namespace. -/
theorem Removes.inside {existed : Bool} (h : Removes p evs s' existed) {deed : Deed}
    (hdeed : deed ∈ deletions evs) (hkind : deed.object.kind ≠ .ns) :
    deed.object ∈ Assets.insideRefs p.settings.ns := by
  have hplan : deed.object ∈ Assets.removal existed p.settings.ns :=
    h.planned.subset (List.mem_map.mpr ⟨deed, hdeed, rfl⟩)
  cases existed with
  | true => exact (Assets.removal_perm _).mem_iff.mp hplan
  | false =>
    rcases List.mem_cons.mp hplan with heq | hplan
    · rw [heq] at hkind
      exact absurd rfl hkind
    · rw [List.mem_singleton.mp hplan]
      exact Assets.bindingRef_mem _

omit [TimeScale τ] in
/-- A creation that was told and did not find its object made it. -/
theorem deletesCreated_iff {trace : List (Event τ)}
    (h : ∀ deed ∈ deletions trace, deed.object.kind ≠ .ns →
      ∃ made : Deed, made.object = deed.object ∧ made.IsTold ∧
        (creations trace).filter (fun d => d.object = deed.object) = [made]) :
    DeletesCreated trace ↔ ∀ deed ∈ deletions trace, deed.object.kind ≠ .ns →
      ∀ fault, ⟨deed.object, .error fault⟩ ∉ creations trace := by
  have hmem : ∀ {object : ObjectRef} {made : Deed} {answer : Except ApiFault Unit},
      (creations trace).filter (fun d => d.object = object) = [made] →
        (⟨object, answer⟩ ∈ creations trace ↔ ⟨object, answer⟩ = made) := by
    intro object made answer hfilter
    rw [← List.mem_singleton, ← hfilter]
    simp
  constructor
  · intro hcreated deed hdeed hkind fault hfault
    obtain ⟨made, hobject, htold, hfilter⟩ := h deed hdeed hkind
    have hok := (hmem hfilter).mp (hcreated deed hdeed hkind)
    rw [← (hmem hfilter).mp hfault] at hok
    cases hok
  · intro hnone deed hdeed hkind
    obtain ⟨⟨object, answer⟩, rfl, htold, hfilter⟩ := h deed hdeed hkind
    cases answer with
    | ok _ => exact (hmem hfilter).mpr rfl
    | error fault => exact absurd ((hmem hfilter).mpr rfl) (hnone deed hdeed hkind fault)

omit [TimeScale τ] in
/-- A removal that is done has deleted only what was created exactly when the binding was, and
everything else in a shared namespace. -/
theorem Removes.created_iff {existed : Bool} (h : Removes p evs s' existed)
    (hdone : s'.phase = .done) :
    DeletesCreated evs ↔ ⟨Assets.bindingRef p.settings.ns, .ok ()⟩ ∈ creations evs ∧
      (⟨Assets.nsRef p.settings.ns, .ok ()⟩ ∈ creations evs ∨
        ∀ object ∈ Assets.insideRefs p.settings.ns, ⟨object, .ok ()⟩ ∈ creations evs) := by
  have hiff : DeletesCreated evs ↔ ∀ object ∈ Assets.removal existed p.settings.ns,
      object.kind ≠ .ns → ⟨object, .ok ()⟩ ∈ creations evs := by
    rw [DeletesCreated, (h.done hdone).1]
    simp [gone]
  have hbinding := Assets.bindingRef_mem p.settings.ns
  have hdeployed := h.deployed
  rw [hiff]
  cases existed with
  | true =>
    have hshared : (⟨Assets.nsRef p.settings.ns, .ok ()⟩ : Deed) ∉ creations evs := fun hmade => by
      have htells : true = false := hdeployed.tells hmade
      cases htells
    have hperm := Assets.removal_perm p.settings.ns
    constructor
    · intro hall
      have hinside : ∀ object ∈ Assets.insideRefs p.settings.ns,
          ⟨object, .ok ()⟩ ∈ creations evs := fun object hobject =>
        hall object (hperm.mem_iff.mpr hobject) (Assets.insideRefs_kind _ _ hobject)
      exact ⟨hinside _ hbinding, .inr hinside⟩
    · rintro ⟨-, hcreated⟩ object hobject -
      exact hcreated.resolve_left hshared object (hperm.mem_iff.mp hobject)
  | false =>
    constructor
    · intro hall
      exact ⟨hall _ (List.mem_cons_of_mem _ List.mem_cons_self)
        (Assets.insideRefs_kind _ _ hbinding), .inl hdeployed.made⟩
    · rintro ⟨hcreated, -⟩ object hobject hkind
      rcases List.mem_cons.mp hobject with rfl | hobject
      · exact absurd rfl hkind
      · rwa [List.mem_singleton.mp hobject]

/-- **A start deletes only what it created exactly when it found none of what it deletes.** -/
theorem start_deletes_created_iff {σ : Type} (p : Plan τ) (hp : p.team.Usual) (w : World τ σ)
    (now : τ) (world : σ) (session : Option Session) (sink : Option Sink) :
    let run := w.trace now world (p.start.perform (.fresh session sink))
    DeletesKnown p.settings.ns run.2 run.1.2 := by
  intro run
  have hleaves : p.start.Leaves (.fresh session sink) run.2 run.1.1 run.1.2 :=
    w.trace_leaves now world _
  have hhandles := start_handles hp hleaves
  have hknown : ∀ deed ∈ deletions run.2, deed.object.kind ≠ .ns →
      ∃ made : Deed, made.object = deed.object ∧ made.IsTold ∧
        (creations run.2).filter (fun d => d.object = deed.object) = [made] := by
    intro deed hdeed hkind
    rcases hhandles.removes with ⟨hnone, -⟩ | ⟨existed, hremoves⟩
    · rw [hnone] at hdeed
      cases hdeed
    · exact hremoves.deployed.once (hremoves.inside hdeed hkind)
  refine ⟨hhandles.createsFirst, hknown, deletesCreated_iff hknown, fun hsome hdone => ?_⟩
  rcases hhandles.removes with ⟨hnone, -⟩ | ⟨existed, hremoves⟩
  · exact absurd hnone hsome
  · exact hremoves.created_iff hdone

/-- In a shared namespace with none of its objects a start deletes only what it created. -/
theorem start_deletes_created_shared :
    let p := Sample.plan [{ serverReplicas := 2 }]
    let run := (Sample.shared []).trace 0 {} (p.start.perform (.fresh none none))
    p.team.Usual ∧ DeletesKnown p.settings.ns run.2 run.1.2 ∧ DeletesCreated run.2 ∧
      (deletions run.2).length = 8 :=
  have hknown := start_deletes_created_iff _ Sample.team_usual (Sample.shared []) 0 {} none none
  ⟨Sample.team_usual, hknown, by decide +kernel, by decide +kernel⟩

/-- **A start can delete what was there before the run**: the servers of somebody else in a shared
namespace. -/
theorem deletes_found_deployment :
    let p := Sample.plan [{ serverReplicas := 2 }]
    let servers : ObjectRef := ⟨.deployment, some p.settings.ns, Assets.serverName⟩
    let run := (Sample.shared [servers]).trace 0 {} (p.start.perform (.fresh none none))
    p.cleanup = true ∧ run.1.1 = .ok () ∧
      ⟨servers, .error (.rejected ApiFault.alreadyExists none)⟩ ∈ creations run.2 ∧
      ⟨servers, .ok ()⟩ ∈ deletions run.2 ∧ ¬ DeletesCreated run.2 := by
  decide +kernel

end Plan
end IngressBench
