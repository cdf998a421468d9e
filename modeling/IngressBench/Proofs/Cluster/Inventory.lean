import IngressBench.Proofs.Program.Makes
import IngressBench.Proofs.Run.Removal
import Mathlib.Logic.Function.Basic

/-!
Deploying in any surroundings, and deploying again.

Whatever a deployment is answered, it creates its objects in order: all of them, or those up to the
first one that is refused otherwise than because it is there already (`InOrder`). Against a cluster
that keeps its objects as a set (`World.Holds`) none is refused, so a deployment adds what is not
there yet, tells whether the namespace was, and can be repeated as often as one likes without
changing anything (`deploy_settles`).

In order are a creation (`createsInOrder_create`) and two steps one after the other
(`CreatesInOrder.bind`), and hence by induction all creations of a list. The inventory after them is
told in the same way.
-/
namespace IngressBench

variable {τ σ α β : Type}

/-! ### Creations in order -/

/-- The call of this event was refused, and not because the object is there already. -/
def Event.Refuses (fault : ApiFault) : Event τ → Prop
  | .asked (.api _) (.error given) _ => given = fault ∧
      fault.hasStatus ApiFault.alreadyExists = false
  | _ => False

/-- What a step leaves that is to create the objects of a plan. -/
structure InOrder (plan : List Manifest) (evs : List (Event τ)) (r : Except Failure α) : Prop where
  /-- The calls are the first creations of the plan. -/
  ordered : calls evs <+: plan.map ApiCall.create
  /-- Unless one of them is refused they are all of them, and the step ends well. -/
  complete : (∀ e ∈ evs, ∀ fault, ¬ e.Refuses fault) →
    calls evs = plan.map ApiCall.create ∧ ∃ v, r = .ok v
  /-- Nothing is done after a refusal, and its fault is the failure of the step. -/
  refused : ∀ before e after fault, evs = before ++ e :: after → e.Refuses fault →
    after = [] ∧ r = .error fault.failure

/-- Whatever the step is answered, it creates the objects of the plan in order. -/
def Action.CreatesInOrder (a : Action τ α) (plan : List Manifest) : Prop :=
  ∀ evs r, a.Leaves evs r → InOrder plan evs r

/-- In a row that ended well nothing was refused. -/
theorem InOrder.not_refused {plan : List Manifest} {evs : List (Event τ)} {v : α}
    (h : InOrder plan evs (.ok v : Except Failure α)) :
    ∀ e ∈ evs, ∀ fault, ¬ e.Refuses fault := by
  intro e he fault hrefuses
  obtain ⟨before, after, hevs⟩ := List.append_of_mem he
  exact nomatch (h.refused before e after fault hevs hrefuses).2

/-- The only element of a row. -/
theorem eq_of_singleton {a e : α} {before after : List α} (h : [a] = before ++ e :: after) :
    e = a ∧ after = [] := by
  cases before with
  | nil => exact ⟨(List.cons.inj h).1.symm, (List.cons.inj h).2.symm⟩
  | cons b before => simp at h

namespace Action

theorem createsInOrder_pure (v : α) : (pure v : Action τ α).CreatesInOrder [] := by
  intro evs r h
  obtain ⟨rfl, rfl⟩ := leaves_pure.mp h
  exact ⟨List.prefix_rfl, fun _ => ⟨rfl, v, rfl⟩, by simp⟩

theorem createsInOrder_log (level : Level) (text : String) :
    (log level text : Action τ Unit).CreatesInOrder [] := by
  intro evs r h
  obtain ⟨rfl, rfl⟩ := leaves_log.mp h
  refine ⟨List.prefix_rfl, fun _ => ⟨rfl, (), rfl⟩, fun before e after fault hevs hrefuses => ?_⟩
  rw [(eq_of_singleton hevs).1] at hrefuses
  exact hrefuses.elim

/-- A step whose creations are in order, and after it another one. -/
theorem CreatesInOrder.bind {a : Action τ α} {f : α → Action τ β} {first rest : List Manifest}
    (ha : a.CreatesInOrder first) (hf : ∀ v, (f v).CreatesInOrder rest) :
    (a >>= f).CreatesInOrder (first ++ rest) := by
  intro evs r h
  rcases leaves_bind.mp h with ⟨x, hx, rfl⟩ | ⟨v, before, after, hv, hafter, rfl⟩
  · -- The first step failed, and its failure is that of a refusal.
    have hfirst := ha _ _ hx
    refine ⟨?_, fun hnone => ?_, fun before e after fault hevs hrefuses => ?_⟩
    · rw [List.map_append]
      exact hfirst.ordered.trans (List.prefix_append ..)
    · obtain ⟨_, v, hv⟩ := hfirst.complete hnone
      cases hv
    · obtain ⟨hend, hr⟩ := hfirst.refused before e after fault hevs hrefuses
      cases hr
      exact ⟨hend, rfl⟩
  · have hfirst := ha _ _ hv
    have hrest := hf v _ _ hafter
    have hmade : calls before = first.map ApiCall.create :=
      (hfirst.complete hfirst.not_refused).1
    refine ⟨?_, fun hnone => ?_, fun before' e after' fault hevs hrefuses => ?_⟩
    · rw [calls_append, hmade, List.map_append, List.prefix_append_right_inj]
      exact hrest.ordered
    · obtain ⟨hcalls, hr⟩ := hrest.complete fun e he => hnone e (List.mem_append_right _ he)
      rw [calls_append, hmade, hcalls, List.map_append]
      exact ⟨rfl, hr⟩
    · -- The refusal is not in the first step, which ended well.
      rcases append_eq_append_cons hevs with ⟨between, rfl, -⟩ | ⟨between, -, hafter⟩
      · exact absurd hrefuses (hfirst.not_refused e (by simp) fault)
      · exact hrest.refused between e after' fault hafter hrefuses

end Action

theorem createsInOrder_create (object : Manifest) :
    (create object : Action τ Bool).CreatesInOrder [object] := by
  intro evs r h
  obtain ⟨reply, time, rest, hr, rfl⟩ := Action.leaves_ask_bind.mp h
  -- A creation that is answered well, or whose object is there, is no refusal.
  have hwell : ∀ {v : Bool}, (∀ fault, ¬ (Event.asked (.api (.create object)) reply time).Refuses
      fault) → InOrder [object] [.asked (.api (.create object)) reply time]
        (.ok v : Except Failure Bool) := by
    intro v hnone
    refine ⟨List.prefix_rfl, fun _ => ⟨rfl, v, rfl⟩, fun before e after fault hevs hrefuses => ?_⟩
    rw [(eq_of_singleton hevs).1] at hrefuses
    exact absurd hrefuses (hnone fault)
  cases reply with
  | ok _ =>
    obtain ⟨rfl, rfl⟩ := Action.leaves_pure.mp hr
    exact hwell fun fault h => h
  | error fault =>
    dsimp only at hr
    split at hr
    · rename_i hstatus
      obtain ⟨rfl, rfl⟩ := Action.leaves_pure.mp hr
      refine hwell fun given hrefuses => ?_
      obtain ⟨rfl, hnot⟩ := hrefuses
      exact Bool.false_ne_true (hnot.symm.trans hstatus)
    · rename_i hstatus
      obtain ⟨rfl, rfl⟩ := Action.leaves_throw.mp hr
      refine ⟨List.prefix_rfl, fun hnone => ?_, fun before e after given hevs hrefuses => ?_⟩
      · exact absurd ⟨rfl, by simpa using hstatus⟩ (hnone _ List.mem_cons_self fault)
      · obtain ⟨rfl, rfl⟩ := eq_of_singleton hevs
        obtain ⟨rfl, -⟩ := hrefuses
        exact ⟨rfl, rfl⟩

theorem createsInOrder_createAll (objects : List Manifest) :
    (createAll objects : Action τ Unit).CreatesInOrder objects := by
  induction objects with
  | nil => exact Action.createsInOrder_pure ()
  | cons object rest ih => exact (createsInOrder_create object).bind fun _ => ih

/-- **A deployment creates the objects of a benchmark in order**, up to a refusal. -/
theorem createsInOrder_deploy (ns : String) :
    (deploy ns : Action τ Bool).CreatesInOrder (Assets.all ns) := by
  have hinside : ∀ existed : Bool, Action.CreatesInOrder (τ := τ)
      (do createAll (Assets.inside ns); return existed) (Assets.inside ns) := fun existed => by
    simpa using (createsInOrder_createAll (Assets.inside ns)).bind fun _ =>
      Action.createsInOrder_pure existed
  refine (Action.createsInOrder_log _ _).bind fun _ =>
    (createsInOrder_create (Assets.namespaceManifest ns)).bind fun existed => ?_
  cases existed with
  | true => exact (Action.createsInOrder_log _ _).bind fun _ => hinside true
  | false => exact hinside false

/-! ### Inventories -/

/-- What a cluster holds: the document of every object that is there. -/
abbrev Inventory := ObjectRef → Option Document

/-- Those of the objects are added that are not there yet. -/
def Inventory.with (inventory : Inventory) (objects : List Manifest) : Inventory :=
  fun ref => (inventory ref).or ((objects.find? fun object => object.ref = ref).map Manifest.body)

/-- The cluster keeps its objects as a set: an object that is there already is refused as such, and
any other one is added. -/
structure World.Holds (w : World τ σ) (inventory : σ → Inventory) : Prop where
  found : ∀ s (object : Manifest), (inventory s object.ref).isSome → ∃ fault cost s',
    w.answer (.api (.create object)) s = (.error fault, cost, s') ∧
      fault.hasStatus ApiFault.alreadyExists = true ∧ inventory s' = inventory s
  made : ∀ s (object : Manifest), inventory s object.ref = none → ∃ cost s',
    w.answer (.api (.create object)) s = (.ok (), cost, s') ∧
      inventory s' = Function.update (inventory s) object.ref (some object.body)

namespace Inventory

variable {inventory : Inventory} {objects : List Manifest}

@[simp] theorem with_nil : inventory.with [] = inventory := by
  funext ref
  simp [Inventory.with]

theorem with_append (first rest : List Manifest) :
    inventory.with (first ++ rest) = (inventory.with first).with rest := by
  funext ref
  simp [Inventory.with, Option.map_or, Option.or_assoc]

/-- An object that was not there is added. -/
theorem with_singleton {object : Manifest} (h : inventory object.ref = none) :
    inventory.with [object] = Function.update inventory object.ref (some object.body) := by
  funext ref
  by_cases href : ref = object.ref
  · subst href
    simp [Inventory.with, h]
  · simp [Inventory.with, href, Ne.symm href]

/-- What is there already is not added again. -/
theorem with_of_present (h : ∀ object ∈ objects, (inventory object.ref).isSome) :
    inventory.with objects = inventory := by
  funext ref
  unfold Inventory.with
  cases hfind : objects.find? fun object => object.ref = ref with
  | none => simp
  | some object =>
    obtain rfl : object.ref = ref := by simpa using List.find?_some hfind
    rw [Option.or_of_isSome (h object (List.mem_of_find?_eq_some hfind))]

theorem present_of_with {object : Manifest} (h : object ∈ objects) :
    (inventory.with objects object.ref).isSome := by
  have hfind : (objects.find? fun other => other.ref = object.ref).isSome :=
    List.find?_isSome.mpr ⟨object, h, by simp⟩
  simp [Inventory.with, hfind]

end Inventory

/-! ### Deploying into an inventory -/

/-- Deploys again and again, and tells every time whether the namespace was there. -/
def deployTimes (ns : String) : Nat → Action τ (List Bool)
  | 0 => return []
  | n + 1 => do
    let existed ← deploy ns
    let rest ← deployTimes ns n
    return existed :: rest

namespace World.Holds

variable [TimeScale τ] {w : World τ σ} {inventory : σ → Inventory}

theorem makes_create (hw : w.Holds inventory) (object : Manifest) (s : σ) :
    ∃ s', w.Makes (create object) s (inventory s object.ref).isSome [.create object] s' ∧
      inventory s' = (inventory s).with [object] := by
  cases hthere : inventory s object.ref with
  | none =>
    obtain ⟨cost, s', hreply, hmade⟩ := hw.made s object hthere
    refine ⟨s', (makes_api hreply).bind (makes_pure false) rfl, ?_⟩
    rw [hmade, Inventory.with_singleton hthere]
  | some body =>
    have hsome : (inventory s object.ref).isSome := by rw [hthere]; rfl
    obtain ⟨fault, cost, s', hreply, hstatus, hsame⟩ := hw.found s object hsome
    refine ⟨s', (makes_api hreply).bind ?_ rfl, ?_⟩
    · dsimp only
      rw [if_pos hstatus]
      exact makes_pure true
    · rw [hsame, Inventory.with_of_present (by simpa using hsome)]

theorem makes_createAll (hw : w.Holds inventory) (objects : List Manifest) (s : σ) :
    ∃ s', w.Makes (createAll objects) s () (objects.map ApiCall.create) s' ∧
      inventory s' = (inventory s).with objects := by
  induction objects generalizing s with
  | nil => exact ⟨s, makes_pure (), Inventory.with_nil.symm⟩
  | cons object rest ih =>
    obtain ⟨s₁, hfirst, hone⟩ := hw.makes_create object s
    obtain ⟨s₂, hrest, hall⟩ := ih s₁
    refine ⟨s₂, hfirst.bind hrest rfl, ?_⟩
    rw [hall, hone, ← Inventory.with_append]
    rfl

/-- **A deployment adds what is not there yet**, and tells whether the namespace was. -/
theorem makes_deploy (hw : w.Holds inventory) (ns : String) (s : σ) :
    ∃ s', w.Makes (deploy ns) s (inventory s (Assets.nsRef ns)).isSome
      ((Assets.all ns).map ApiCall.create) s' ∧
      inventory s' = (inventory s).with (Assets.all ns) := by
  obtain ⟨s₁, hns, hone⟩ := hw.makes_create (Assets.namespaceManifest ns) s
  obtain ⟨s₂, hinside, hall⟩ := hw.makes_createAll (Assets.inside ns) s₁
  have hrest : ∀ existed : Bool, w.Makes (do createAll (Assets.inside ns); return existed) s₁
      existed ((Assets.inside ns).map ApiCall.create) s₂ := fun existed =>
    hinside.bind (makes_pure existed) (List.append_nil _)
  refine ⟨s₂, (makes_log _ _).bind (hns.bind ?_ rfl) rfl, ?_⟩
  · show w.Makes _ s₁ (inventory s (Assets.nsRef ns)).isSome _ s₂
    split
    · exact (makes_log _ _).bind (hrest _) rfl
    · exact hrest _
  · rw [hall, hone, ← Inventory.with_append]
    rfl

/-- Where everything is there, deploying changes nothing. -/
theorem makes_deployTimes (hw : w.Holds inventory) (ns : String) (n : Nat) (s : σ)
    (hthere : ∀ object ∈ Assets.all ns, (inventory s object.ref).isSome) :
    ∃ made s', w.Makes (deployTimes ns n) s (List.replicate n true) made s' ∧
      inventory s' = inventory s := by
  induction n generalizing s with
  | zero => exact ⟨[], s, makes_pure [], rfl⟩
  | succ n ih =>
    obtain ⟨s₁, hdeploy, hadded⟩ := hw.makes_deploy ns s
    have hsame : inventory s₁ = inventory s := hadded.trans (Inventory.with_of_present hthere)
    have hns : (inventory s (Assets.nsRef ns)).isSome = true :=
      hthere (Assets.namespaceManifest ns) List.mem_cons_self
    rw [hns] at hdeploy
    obtain ⟨made, s₂, hrest, hend⟩ := ih s₁ (by rwa [hsame])
    refine ⟨_, s₂, hdeploy.bind (hrest.bind (makes_pure _) (List.append_nil _)) rfl, ?_⟩
    rw [hend, hsame]

end World.Holds

/-! ### Every deployment -/

/-- The creation of the namespace was answered as the result of the deployment tells. -/
def ToldByNamespace (ns : String) (evs : List (Event τ)) (r : Except Failure Bool) : Prop :=
  ∃ (reply : Except ApiFault Unit) (time : τ),
    .asked (.api (.create (Assets.namespaceManifest ns))) reply time ∈ evs ∧
      ∀ existed, r = .ok existed → Tells existed reply

/-- The objects of a benchmark are nine different ones. -/
theorem Assets.all_nine (ns : String) :
    (all ns).length = 9 ∧ ((all ns).map Manifest.ref).Nodup :=
  ⟨rfl, insideRefs_nodup ns⟩

/-- **Deploying settles.** In any surroundings a deployment creates the nine objects of a benchmark
in order, up to the first one that is refused, and tells what the creation of the namespace was
answered. Where objects are kept as a set nothing is refused: what was not there is added, and
deploying again, as often as one likes, finds everything there and changes nothing. -/
theorem deploy_settles [TimeScale τ] (w : World τ σ) (ns : String) :
    ((Assets.all ns).length = 9 ∧ ((Assets.all ns).map Manifest.ref).Nodup) ∧
    (∀ h : History τ σ, ∃ evs,
      (w.run (deploy ns).run h).2.events = evs.reverse ++ h.events ∧
      InOrder (Assets.all ns) evs (w.run (deploy ns).run h).1 ∧
      ToldByNamespace ns evs (w.run (deploy ns).run h).1) ∧
    ∀ inventory : σ → Inventory, w.Holds inventory → ∀ s n, ∃ s₁ s₂ made,
      w.Makes (deploy ns) s (inventory s (Assets.nsRef ns)).isSome
        ((Assets.all ns).map ApiCall.create) s₁ ∧
      inventory s₁ = (inventory s).with (Assets.all ns) ∧
      w.Makes (deployTimes ns n) s₁ (List.replicate n true) made s₂ ∧
      inventory s₂ = inventory s₁ := by
  refine ⟨Assets.all_nine ns, fun h => ?_, fun inventory hw s n => ?_⟩
  · obtain ⟨evs, hleaves, hevents⟩ := w.run_leaves (deploy ns).run h
    obtain ⟨text, reply, time, rest, hevs, -, htells⟩ := deploy_leaves hleaves
    have hasked : Event.asked (.api (.create (Assets.namespaceManifest ns))) reply time ∈ evs := by
      rw [hevs]
      exact List.mem_cons_of_mem _ List.mem_cons_self
    exact ⟨evs, hevents, createsInOrder_deploy ns evs _ hleaves, reply, time, hasked, htells⟩
  · obtain ⟨s₁, hdeploy, hadded⟩ := hw.makes_deploy ns s
    have hthere : ∀ object ∈ Assets.all ns, (inventory s₁ object.ref).isSome := fun object hmem => by
      rw [hadded]
      exact Inventory.present_of_with hmem
    obtain ⟨made, s₂, hagain, hsame⟩ := hw.makes_deployTimes ns n s₁ hthere
    exact ⟨s₁, s₂, made, hdeploy, hadded, hagain, hsame⟩

namespace Sample

/-- What manifests make up. -/
def stock (manifests : List Manifest) : Inventory :=
  Inventory.with (fun _ => none) manifests

/-- A cluster that keeps the manifests of what was created in it. -/
def registry : World Nat (List Manifest) :=
  world (fun s call => match call with
    | .create object =>
      if (stock s object.ref).isSome then .error (.rejected ApiFault.alreadyExists none) else .ok ()
    | call => Ideal.answer {} call) fun s call => match call with
    | .create object => if (stock s object.ref).isSome then s else s ++ [object]
    | _ => s

theorem registry_holds : registry.Holds stock where
  found s object h := by
    refine ⟨.rejected ApiFault.alreadyExists none, 1, s, ?_, rfl, rfl⟩
    simp [registry, world, reply, h]
  made s object h := by
    refine ⟨1, s ++ [object], by simp [registry, world, reply, h], ?_⟩
    unfold stock at h ⊢
    rw [Inventory.with_append, Inventory.with_singleton h]

end Sample

/-- A namespace that is there, with nothing in it: the rest is added, and the next two deployments
find everything. -/
theorem deploy_settles_registry :
    Sample.registry.Holds Sample.stock ∧
    ∃ s₁ s₂ made,
      Sample.registry.Makes (deploy "bench") [Assets.namespaceManifest "bench"] true
        ((Assets.all "bench").map ApiCall.create) s₁ ∧
      Sample.registry.Makes (deployTimes "bench" 2) s₁ [true, true] made s₂ ∧
      Sample.stock s₂ = Sample.stock s₁ := by
  have hw := Sample.registry_holds
  obtain ⟨s₁, s₂, made, hdeploy, -, hagain, hsame⟩ :=
    (deploy_settles Sample.registry "bench").2.2 Sample.stock hw [Assets.namespaceManifest "bench"] 2
  exact ⟨hw, s₁, s₂, made, hdeploy, hagain, hsame⟩

end IngressBench
