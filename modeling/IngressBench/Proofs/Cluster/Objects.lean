import IngressBench.Proofs.Deploy
import IngressBench.Proofs.Teardown

/-!
The objects that a row of events creates and deletes, each with the answer that it came with.

A deployment that ends well has created every object of a benchmark once (`deploy_creates`). A removal
deletes the objects of its plan in order, up to the first one that is refused (`removeAssets_deletes`),
and a namespace of the benchmark's own has been seen gone before anything else is deleted
(`removeAssets_awaits`). The plan for a shared namespace is what was created inside
(`Assets.removal_perm`).
-/
namespace IngressBench

open scoped List

variable {τ : Type}

/-- What computations end with can be compared. -/
instance decidableEqExcept {ε α : Type} [DecidableEq ε] [DecidableEq α] :
    DecidableEq (Except ε α)
  | .ok a, .ok b => decidable_of_iff (a = b) ⟨congrArg _, Except.ok.inj⟩
  | .error x, .error y => decidable_of_iff (x = y) ⟨congrArg _, Except.error.inj⟩
  | .ok _, .error _ => .isFalse nofun
  | .error _, .ok _ => .isFalse nofun

/-- What a creation or a deletion is about, and its answer. -/
structure Deed where
  object : ObjectRef
  answer : Except ApiFault Unit
deriving DecidableEq

/-- The creation that an event is. -/
def Event.creation? : Event τ → Option Deed
  | .asked (.api (.create object)) reply _ => some ⟨object.ref, reply⟩
  | _ => none

/-- The deletion that an event is. -/
def Event.deletion? : Event τ → Option Deed
  | .asked (.api (.delete object)) reply _ => some ⟨object, reply⟩
  | _ => none

/-- The creations of a row, in order. -/
def creations (evs : List (Event τ)) : List Deed :=
  evs.filterMap Event.creation?

/-- The deletions of a row, in order. -/
def deletions (evs : List (Event τ)) : List Deed :=
  evs.filterMap Event.deletion?

/-- The objects of creations or deletions. -/
def objectsOf (deeds : List Deed) : List ObjectRef :=
  deeds.map Deed.object

/-- The deletions of objects, all of them answered well. -/
def gone (objects : List ObjectRef) : List Deed :=
  objects.map fun object => ⟨object, .ok ()⟩

@[simp] theorem creations_nil : creations ([] : List (Event τ)) = [] := rfl

@[simp] theorem deletions_nil : deletions ([] : List (Event τ)) = [] := rfl

@[simp] theorem creations_append (first rest : List (Event τ)) :
    creations (first ++ rest) = creations first ++ creations rest :=
  List.filterMap_append

@[simp] theorem deletions_append (first rest : List (Event τ)) :
    deletions (first ++ rest) = deletions first ++ deletions rest :=
  List.filterMap_append

@[simp] theorem objectsOf_append (first rest : List Deed) :
    objectsOf (first ++ rest) = objectsOf first ++ objectsOf rest :=
  List.map_append

@[simp] theorem objectsOf_gone (objects : List ObjectRef) : objectsOf (gone objects) = objects := by
  simp [objectsOf, gone, Function.comp_def]

theorem gone_append (first rest : List ObjectRef) :
    gone (first ++ rest) = gone first ++ gone rest :=
  List.map_append

/-! ### Rows without deeds -/

/-- A question that neither creates nor deletes an object. -/
def Question.Passive : Question → Prop
  | .api (.create _) | .api (.delete _) => False
  | _ => True

/-- A row that neither creates nor deletes an object. -/
def Untouched (evs : List (Event τ)) : Prop :=
  creations evs = [] ∧ deletions evs = []

theorem Event.Asks.deedless {e : Event τ} (h : e.Asks Question.Passive) :
    e.creation? = none ∧ e.deletion? = none := by
  cases e with
  | asked q reply time =>
    cases q with
    | api call =>
      cases call with
      | create object => exact h.elim
      | delete object => exact h.elim
      | _ => exact ⟨rfl, rfl⟩
    | _ => exact ⟨rfl, rfl⟩
  | _ => exact ⟨rfl, rfl⟩

theorem untouched_of_passive {evs : List (Event τ)} (h : ∀ e ∈ evs, e.Asks Question.Passive) :
    Untouched evs :=
  ⟨List.filterMap_eq_nil_iff.mpr fun e he => (h e he).deedless.1,
    List.filterMap_eq_nil_iff.mpr fun e he => (h e he).deedless.2⟩

theorem Untouched.append {first rest : List (Event τ)} (hfirst : Untouched first)
    (hrest : Untouched rest) : Untouched (first ++ rest) := by
  simp [Untouched, hfirst.1, hfirst.2, hrest.1, hrest.2]

theorem passive_of_forall {P : Question → Prop} (hcreate : ∀ object, ¬ P (.api (.create object)))
    (hdelete : ∀ object, ¬ P (.api (.delete object))) (q : Question) (hq : P q) : q.Passive := by
  cases q with
  | api call =>
    cases call with
    | create object => exact hcreate object hq
    | delete object => exact hdelete object hq
    | _ => trivial
  | _ => trivial

/-- Creating deletes nothing. -/
theorem deletions_of_creates {objects : List Manifest} {evs : List (Event τ)}
    (h : ∀ e ∈ evs, e.Asks (Question.Creates objects)) : deletions evs = [] := by
  refine List.filterMap_eq_nil_iff.mpr fun e he => ?_
  have hask := h e he
  cases e with
  | asked q reply time =>
    obtain ⟨object, -, rfl⟩ := hask
    rfl
  | _ => rfl

/-- Removing creates nothing. -/
theorem creations_of_removes {K : ObjectKind → Prop} {evs : List (Event τ)}
    (h : ∀ e ∈ evs, e.Asks (Question.Removes K)) : creations evs = [] := by
  refine List.filterMap_eq_nil_iff.mpr fun e he => ?_
  have hask := h e he
  cases e with
  | asked q reply time =>
    cases q with
    | api call =>
      cases call with
      | create object => exact hask.elim
      | _ => rfl
    | _ => rfl
  | _ => rfl

/-! ### Creating -/

/-- The object was created, or was there already. -/
def Deed.IsTold (deed : Deed) : Prop :=
  ∃ existed, Tells existed deed.answer

/-- Objects are created in order, up to the first one that can be neither created nor found. -/
theorem createAll_creates {objects : List Manifest} {evs : List (Event τ)}
    {r : Except Failure Unit} (h : (createAll objects).Leaves evs r) :
    objectsOf (creations evs) <+: objects.map Manifest.ref ∧
      (r = .ok () → objectsOf (creations evs) = objects.map Manifest.ref ∧
        ∀ deed ∈ creations evs, deed.IsTold) := by
  induction objects generalizing evs with
  | nil =>
    obtain ⟨rfl, -⟩ := Action.leaves_pure.mp h
    simp [objectsOf]
  | cons object rest ih =>
    rcases Action.leaves_bind.mp h with ⟨x, hx, rfl⟩ | ⟨existed, first, later, hv, h₁, rfl⟩
    · obtain ⟨reply, time, rfl, -⟩ := create_leaves hx
      simp [creations, objectsOf, Event.creation?]
    · obtain ⟨reply, time, rfl, htells⟩ := create_leaves hv
      obtain ⟨hfirst, hall⟩ := ih h₁
      have hcreated : creations (.asked (.api (.create object)) reply time :: later) =
          ⟨object.ref, reply⟩ :: creations later := rfl
      rw [List.singleton_append, hcreated]
      refine ⟨List.cons_prefix_cons.mpr ⟨rfl, hfirst⟩, fun hr => ?_⟩
      obtain ⟨hobjects, htold⟩ := hall hr
      exact ⟨congrArg (object.ref :: ·) hobjects,
        List.forall_mem_cons.mpr ⟨⟨existed, htells existed rfl⟩, htold⟩⟩

/-- The reference of a namespace. -/
def Assets.nsRef (ns : String) : ObjectRef :=
  ⟨.ns, none, ns⟩

/-- The objects of a benchmark that stand behind its namespace. -/
def Assets.insideRefs (ns : String) : List ObjectRef :=
  (Assets.inside ns).map Manifest.ref

/-- What is created by a deployment that tells whether the namespace was there: the namespace, and
then all that stands behind it. -/
def Deployed (ns : String) (existed : Bool) (deeds : List Deed) : Prop :=
  ∃ answer rest, deeds = ⟨Assets.nsRef ns, answer⟩ :: rest ∧ Tells existed answer ∧
    objectsOf rest = Assets.insideRefs ns ∧ ∀ deed ∈ rest, deed.IsTold

theorem deploy_deletes {ns : String} {evs : List (Event τ)} {r : Except Failure Bool}
    (h : (deploy ns).Leaves evs r) : deletions evs = [] :=
  deletions_of_creates (asks_deploy ns _ _ h)

/-- What a deployment does behind the namespace. -/
theorem createInside_creates {ns : String} {found existed : Bool} {evs : List (Event τ)}
    (h : Action.Leaves (do createAll (Assets.inside ns); return found) evs (.ok existed)) :
    found = existed ∧ objectsOf (creations evs) = Assets.insideRefs ns ∧
      ∀ deed ∈ creations evs, deed.IsTold := by
  obtain ⟨_, first, last, hall, hp, rfl⟩ := Action.leaves_bind_ok.mp h
  obtain ⟨rfl, hr⟩ := Action.leaves_pure.mp hp
  rw [List.append_nil]
  exact ⟨(Except.ok.inj hr).symm, (createAll_creates hall).2 rfl⟩

/-- **A deployment that ends well has created everything once**, or found it there. -/
theorem deploy_creates {ns : String} {evs : List (Event τ)} {existed : Bool}
    (h : (deploy ns).Leaves evs (.ok existed)) : Deployed ns existed (creations evs) := by
  obtain ⟨evs, h₁, rfl⟩ := Action.leaves_log_bind.mp h
  obtain ⟨found, first, rest, hv, h₂, rfl⟩ := Action.leaves_bind_ok.mp h₁
  obtain ⟨answer, time, rfl, htells⟩ := create_leaves hv
  have hinside : found = existed ∧ objectsOf (creations rest) = Assets.insideRefs ns ∧
      ∀ deed ∈ creations rest, deed.IsTold := by
    cases found with
    | true =>
      obtain ⟨rest, h₃, rfl⟩ := Action.leaves_log_bind.mp h₂
      have hinside := createInside_creates h₃
      exact hinside
    | false => exact createInside_creates h₂
  obtain ⟨rfl, hobjects, htold⟩ := hinside
  exact ⟨answer, creations rest, rfl, htells found rfl, hobjects, htold⟩

/-! ### Creations that fail -/

/-- Among these deeds is one that was refused, and not because its object is there. -/
def Refused (deeds : List Deed) : Prop :=
  ∃ object fault, ⟨object, .error fault⟩ ∈ deeds ∧ fault.hasStatus ApiFault.alreadyExists = false

theorem create_refused {object : Manifest} {evs : List (Event τ)} {x : Failure}
    (h : (create object).Leaves evs (.error x)) : Refused (creations evs) := by
  obtain ⟨reply, time, rest, hr, rfl⟩ := Action.leaves_ask_bind.mp h
  cases reply with
  | ok _ => cases (Action.leaves_pure.mp hr).2
  | error fault =>
    dsimp only at hr
    split at hr
    · cases (Action.leaves_pure.mp hr).2
    · rename_i hstatus
      exact ⟨object.ref, fault, List.mem_cons_self, by simpa using hstatus⟩

theorem createAll_refused {objects : List Manifest} {evs : List (Event τ)} {x : Failure}
    (h : (createAll objects).Leaves evs (.error x)) : Refused (creations evs) := by
  induction objects generalizing evs with
  | nil => cases (Action.leaves_pure.mp h).2
  | cons object rest ih =>
    rcases Action.leaves_bind.mp h with ⟨_, hx, -⟩ | ⟨_, first, later, -, h₁, rfl⟩
    · exact create_refused hx
    · obtain ⟨other, fault, hmem, hstatus⟩ := ih h₁
      exact ⟨other, fault, by simp [hmem], hstatus⟩

/-- **A deployment fails only for a creation that was refused.** -/
theorem deploy_refused {ns : String} {evs : List (Event τ)} {x : Failure}
    (h : (deploy ns).Leaves evs (.error x)) : Refused (creations evs) := by
  have hinside : ∀ {found : Bool} {rest : List (Event τ)}, Action.Leaves
      (do createAll (Assets.inside ns); return found) rest (.error x) →
        Refused (creations rest) := by
    intro found rest hl
    rcases Action.leaves_bind.mp hl with ⟨_, hx, -⟩ | ⟨_, _, _, -, hp, -⟩
    · exact createAll_refused hx
    · cases (Action.leaves_pure.mp hp).2
  obtain ⟨evs, h₁, rfl⟩ := Action.leaves_log_bind.mp h
  rcases Action.leaves_bind.mp h₁ with ⟨_, hx, -⟩ | ⟨found, first, rest, -, h₂, rfl⟩
  · have hrefused := create_refused hx
    exact hrefused
  have hrest : Refused (creations rest) := by
    cases found with
    | true =>
      obtain ⟨rest, h₃, rfl⟩ := Action.leaves_log_bind.mp h₂
      have hrefused := hinside h₃
      exact hrefused
    | false => exact hinside h₂
  obtain ⟨object, fault, hmem, hstatus⟩ := hrest
  have hall : (⟨object, .error fault⟩ : Deed) ∈ creations (first ++ rest) := by simp [hmem]
  exact ⟨object, fault, hall, hstatus⟩

/-- In a deployment that ends well nothing was refused. -/
theorem Deployed.not_refused {ns : String} {existed : Bool} {deeds : List Deed}
    (h : Deployed ns existed deeds) : ¬ Refused deeds := by
  rintro ⟨object, fault, hmem, hstatus⟩
  obtain ⟨answer, rest, rfl, htells, -, htold⟩ := h
  have hfound : fault.hasStatus ApiFault.alreadyExists = true := by
    rcases List.mem_cons.mp hmem with heq | hmem
    · obtain ⟨-, rfl⟩ := Deed.mk.inj heq
      exact htells.2
    · obtain ⟨_, htells'⟩ := htold _ hmem
      exact htells'.2
  rw [hstatus] at hfound
  cases hfound

/-! ### Deleting -/

variable [TimeScale τ]

/-- The objects that a removal deletes, in order: a namespace of the benchmark's own as a whole, the
objects of a shared one one by one, and the binding of the clients' role. -/
def Assets.removal (existed : Bool) (ns : String) : List ObjectRef :=
  (if existed then Assets.removable ns else [Assets.nsRef ns]) ++ [Assets.bindingRef ns]

/-- The deletions of a row are the first ones of a plan, and all of it if the row ends well. -/
def Deletes (plan : List ObjectRef) (evs : List (Event τ)) (r : Except Failure Unit) : Prop :=
  objectsOf (deletions evs) <+: plan ∧ (r = .ok () → deletions evs = gone plan)

omit [TimeScale τ] in
theorem delete_deletes {object : ObjectRef} {evs : List (Event τ)} {r : Except Failure Unit}
    (h : (Action.apiOrFail (.delete object) : Action τ Unit).Leaves evs r) :
    Deletes [object] evs r := by
  obtain ⟨reply, time, rfl, rfl⟩ := Action.leaves_apiOrFail.mp h
  refine ⟨List.prefix_refl _, fun hr => ?_⟩
  cases reply with
  | ok _ => rfl
  | error fault => cases hr

omit [TimeScale τ] in
/-- One plan after another: the second one only if the first one ended well. -/
theorem deletes_bind {a b : Action τ Unit} {plan later : List ObjectRef}
    (ha : ∀ evs r, a.Leaves evs r → Deletes plan evs r)
    (hb : ∀ evs r, b.Leaves evs r → Deletes later evs r) {evs : List (Event τ)}
    {r : Except Failure Unit} (h : (a >>= fun _ => b).Leaves evs r) :
    Deletes (plan ++ later) evs r := by
  rcases Action.leaves_bind.mp h with ⟨x, hx, rfl⟩ | ⟨_, first, rest, hv, h₁, rfl⟩
  · have hfirst := (ha _ _ hx).1
    exact ⟨hfirst.trans (List.prefix_append _ _), fun hr => nomatch hr⟩
  · have hfirst : deletions first = gone plan := (ha _ _ hv).2 rfl
    obtain ⟨hlater, hall⟩ := hb _ _ h₁
    rw [Deletes, deletions_append, hfirst, objectsOf_append, objectsOf_gone, gone_append]
    exact ⟨(List.prefix_append_right_inj _).mpr hlater, fun hr => by rw [hall hr]⟩

omit [TimeScale τ] in
theorem deleteAll_deletes {objects : List ObjectRef} {evs : List (Event τ)}
    {r : Except Failure Unit} (h : (deleteAll objects).Leaves evs r) : Deletes objects evs r := by
  induction objects generalizing evs r with
  | nil =>
    obtain ⟨rfl, -⟩ := Action.leaves_pure.mp h
    exact ⟨List.prefix_refl _, fun _ => rfl⟩
  | cons object rest ih =>
    exact deletes_bind (fun _ _ => delete_deletes) (fun _ _ => ih) h

/-- A wait that ends well ends with a look at which the condition holds. -/
theorem waitUntil_holds {pace : Pace τ} {timeout : τ} {condition : Action τ Bool}
    {evs : List (Event τ)} (h : (waitUntil pace timeout condition).Leaves evs (.ok ())) :
    ∃ before last, evs = before ++ last ∧ condition.Leaves last (.ok true) := by
  obtain ⟨now, h₁⟩ := Action.leaves_clock_bind.mp h
  obtain ⟨⟨seen, fault⟩, first, rest, hloop, h₂, rfl⟩ := Action.leaves_bind_ok.mp h₁
  cases fault with
  | some fault => cases (Action.leaves_throw.mp h₂).2
  | none =>
    obtain ⟨rfl, -⟩ := Action.leaves_pure.mp h₂
    obtain ⟨polls, last, rfl, -, hlast⟩ := watchLoop_leaves hloop
    rw [List.append_nil]
    cases hlast with
    | enough hlook =>
      obtain ⟨holds, look, _, hc, hp, rfl⟩ := Action.leaves_bind_ok.mp hlook
      obtain ⟨rfl, hr⟩ := Action.leaves_pure.mp hp
      obtain ⟨-, rfl⟩ := Prod.mk.inj (Except.ok.inj hr)
      rw [List.append_nil]
      exact ⟨polls, look, rfl, hc⟩

omit [TimeScale τ] in
/-- A namespace is gone when the cluster does not find it. -/
theorem namespaceGone_leaves {ns : String} {evs : List (Event τ)}
    (h : (namespaceGone ns).Leaves evs (.ok true)) :
    ∃ (fault : ApiFault) (time : τ), evs = [.asked (.api (.readNamespace ns)) (.error fault) time] ∧
      fault.hasStatus ApiFault.notFound = true := by
  obtain ⟨reply, time, rest, h₁, rfl⟩ := Action.leaves_ask_bind.mp h
  cases reply with
  | ok _ => cases (Action.leaves_pure.mp h₁).2
  | error fault =>
    dsimp only at h₁
    split at h₁
    · rename_i hstatus
      obtain ⟨rfl, -⟩ := Action.leaves_pure.mp h₁
      exact ⟨fault, time, rfl, hstatus⟩
    · cases (Action.leaves_throw.mp h₁).2

theorem waitUntil_gone_deletes {pace : Pace τ} {timeout : τ} {ns : String} {evs : List (Event τ)}
    {r : Except Failure Unit} (h : (waitUntil pace timeout (namespaceGone ns)).Leaves evs r) :
    deletions evs = [] := by
  have hgone : (namespaceGone ns : Action τ Bool).Asks (Question.Removes fun _ => False) :=
    asks_namespaceGone ns
  have hasks := asks_waitUntil hgone _ _ h
  refine List.filterMap_eq_nil_iff.mpr fun e he => ?_
  have hask := hasks e he
  cases e with
  | asked q reply time =>
    cases q with
    | api call =>
      cases call with
      | delete object => exact hask.elim
      | _ => rfl
    | _ => rfl
  | _ => rfl

/-- **A removal follows its plan**, up to the first deletion that is refused. -/
theorem removeAssets_plan {pace : Pace τ} {timeout : τ} {existed : Bool} {ns : String}
    {evs : List (Event τ)} {r : Except Failure Unit}
    (h : (removeAssets pace timeout existed ns).Leaves evs r) :
    Deletes (Assets.removal existed ns) evs r := by
  obtain ⟨evs, h₁, rfl⟩ := Action.leaves_log_bind.mp h
  show Deletes _ evs r
  cases existed with
  | true => exact deletes_bind (fun _ _ => deleteAll_deletes) (fun _ _ => delete_deletes) h₁
  | false =>
    refine deletes_bind (fun evs r h₂ => ?_) (fun _ _ => delete_deletes) h₁
    have hwaits : ∀ evs r, Action.Leaves (do
        Action.log .info s!"Waiting for namespace {ns} to be deleted"
        waitUntil pace timeout (namespaceGone ns)) evs r → Deletes [] evs r := fun evs r h₃ => by
      obtain ⟨rest, h₄, rfl⟩ := Action.leaves_log_bind.mp h₃
      have hnone : deletions rest = [] := waitUntil_gone_deletes h₄
      exact ⟨(congrArg objectsOf hnone).symm ▸ List.prefix_refl _, fun _ => hnone⟩
    exact deletes_bind (fun _ _ => delete_deletes) hwaits h₂

/-- The namespace is deleted, and then the cluster is asked about it until it is not found. -/
inductive SeenGone (ns : String) : List (Event τ) → Prop
  | mk {before waiting after : List (Event τ)} {fault : ApiFault} (time at_ : τ)
      (hwaiting : deletions waiting = []) (hgone : fault.hasStatus ApiFault.notFound = true) :
      SeenGone ns (before ++ .asked (.api (.delete (Assets.nsRef ns))) (.ok ()) time ::
        (waiting ++ .asked (.api (.readNamespace ns)) (.error fault) at_ :: after))

omit [TimeScale τ] in
theorem SeenGone.after {ns : String} {evs : List (Event τ)} (h : SeenGone ns evs)
    (first : List (Event τ)) : SeenGone ns (first ++ evs) := by
  obtain @⟨before, waiting, after, fault, time, at_, hwaiting, hgone⟩ := h
  rw [← List.append_assoc]
  exact .mk time at_ hwaiting hgone

/-- **A namespace of the benchmark's own has been seen gone** after a removal that ends well. -/
theorem removeAssets_awaits {pace : Pace τ} {timeout : τ} {ns : String} {evs : List (Event τ)}
    (h : (removeAssets pace timeout false ns).Leaves evs (.ok ())) : SeenGone ns evs := by
  obtain ⟨_, h₁, rfl⟩ := Action.leaves_log_bind.mp h
  obtain ⟨_, removing, rest, h₂, -, rfl⟩ := Action.leaves_bind_ok.mp h₁
  rcases Action.leaves_apiOrFail_bind.mp h₂ with ⟨_, _, -, hr⟩ | ⟨_, time, _, h₃, rfl⟩
  · cases hr
  obtain ⟨waiting, h₄, rfl⟩ := Action.leaves_log_bind.mp h₃
  have hnone : deletions waiting = [] := waitUntil_gone_deletes h₄
  obtain ⟨polls, last, rfl, hlook⟩ := waitUntil_holds h₄
  obtain ⟨fault, at_, rfl, hgone⟩ := namespaceGone_leaves hlook
  have hpolls : deletions polls = [] := by
    simpa using (List.append_eq_nil_iff.mp ((deletions_append polls _).symm.trans hnone)).1
  have hseen : SeenGone ns ([.logged .info "Cleaning up resources"] ++
      .asked (.api (.delete (Assets.nsRef ns))) (.ok ()) time ::
        ((.logged .info s!"Waiting for namespace {ns} to be deleted" :: polls) ++
          .asked (.api (.readNamespace ns)) (.error fault) at_ :: rest)) :=
    .mk time at_ hpolls hgone
  rw [List.append_cons (_ :: polls)] at hseen
  exact hseen

/-! ### The plan -/

/-- **The plan for a shared namespace is what was created inside**, in another order. -/
theorem Assets.removal_perm (ns : String) :
    (Assets.removal true ns).Perm (Assets.insideRefs ns) := by
  let client : ObjectRef := ⟨.deployment, some ns, clientName⟩
  let server : ObjectRef := ⟨.deployment, some ns, serverName⟩
  let service : ObjectRef := ⟨.service, some ns, serverName⟩
  let others := (routes ns).map Manifest.ref
  calc Assets.removal true ns
    _ = client :: server :: service :: (others ++ [bindingRef ns]) := rfl
    _ ~ server :: client :: service :: (others ++ [bindingRef ns]) := .swap ..
    _ ~ server :: client :: service :: bindingRef ns :: others :=
      (((List.perm_append_singleton _ _).cons _).cons _).cons _
    _ ~ server :: bindingRef ns :: client :: service :: others :=
      (@List.perm_middle _ _ [client, service] others).cons _
    _ = Assets.insideRefs ns := rfl

end IngressBench
