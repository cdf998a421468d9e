import IngressBench.Proofs.Wait
import IngressBench.Teardown

/-!
What removing the objects of a benchmark leaves. A namespace that was there before is not deleted
(`removeAssets_keeps`); a namespace of the benchmark's own is deleted first and once
(`removeAssets_deletes`).
-/
namespace IngressBench

variable {τ : Type} [TimeScale τ]

/-! ### What is asked for -/

/-- The deletion of an object whose kind satisfies `K`, or a look at a namespace. -/
def Question.Removes (K : ObjectKind → Prop) : Question → Prop
  | .api (.delete object) => K object.kind
  | .api (.readNamespace _) => True
  | _ => False

omit [TimeScale τ] in
theorem asks_deleteAll {K : ObjectKind → Prop} {objects : List ObjectRef}
    (h : ∀ object ∈ objects, K object.kind) :
    (deleteAll objects : Action τ Unit).Asks (Question.Removes K) := by
  induction objects with
  | nil => exact Action.asks_pure _
  | cons object rest ih =>
    refine Action.asks_bind (Action.asks_apiOrFail (h object List.mem_cons_self)) fun _ => ?_
    exact ih fun other hmem => h other (List.mem_cons_of_mem _ hmem)

omit [TimeScale τ] in
theorem asks_namespaceGone {K : ObjectKind → Prop} (ns : String) :
    (namespaceGone ns : Action τ Bool).Asks (Question.Removes K) := by
  refine Action.asks_bind (Action.asks_ask trivial) fun answer => ?_
  cases answer with
  | ok _ => exact Action.asks_pure _
  | error fault =>
    dsimp only
    split
    · exact Action.asks_pure _
    · exact Action.asks_throw _

theorem asks_removeNamespace {K : ObjectKind → Prop} (hns : K .ns) (pace : Pace τ) (timeout : τ)
    (ns : String) : (removeNamespace pace timeout ns).Asks (Question.Removes K) := by
  refine Action.asks_bind (Action.asks_apiOrFail hns) fun _ => ?_
  refine Action.asks_bind (Action.asks_log _ _) fun _ => ?_
  exact asks_waitUntil (asks_namespaceGone ns)

theorem asks_removeAssets (pace : Pace τ) (timeout : τ) (existed : Bool) (ns : String) :
    (removeAssets pace timeout existed ns).Asks (Question.Removes fun _ => True) := by
  refine Action.asks_bind (Action.asks_log _ _) fun _ => ?_
  cases existed with
  | true =>
    refine Action.asks_bind (asks_deleteAll fun _ _ => trivial) fun _ => ?_
    exact Action.asks_apiOrFail trivial
  | false =>
    refine Action.asks_bind (asks_removeNamespace trivial pace timeout ns) fun _ => ?_
    exact Action.asks_apiOrFail trivial

/-! ### What it leaves -/

/-- No removable object is a namespace. -/
theorem Assets.removable_kind (ns : String) :
    ∀ object ∈ Assets.removable ns, object.kind ≠ .ns := by
  intro object hmem
  rcases List.mem_append.mp hmem with hmem | hmem
  · rcases List.mem_cons.mp hmem with rfl | hmem
    · exact fun h => nomatch h
    rcases List.mem_cons.mp hmem with rfl | hmem
    · exact fun h => nomatch h
    obtain rfl := List.mem_singleton.mp hmem
    exact fun h => nomatch h
  · obtain ⟨manifest, hmanifest, rfl⟩ := List.mem_map.mp hmem
    obtain ⟨termination, -, rfl⟩ := List.mem_map.mp hmanifest
    exact fun h => nomatch h

theorem Assets.bindingRef_kind (ns : String) : (Assets.bindingRef ns).kind ≠ .ns :=
  fun h => nomatch h

/-- **A namespace that was there before is not deleted.** -/
theorem removeAssets_keeps (pace : Pace τ) (timeout : τ) (ns : String) :
    (removeAssets pace timeout true ns).Asks (Question.Removes (· ≠ .ns)) := by
  refine Action.asks_bind (Action.asks_log _ _) fun _ => ?_
  refine Action.asks_bind (asks_deleteAll (Assets.removable_kind ns)) fun _ => ?_
  exact Action.asks_apiOrFail (Assets.bindingRef_kind ns)

/-- **A namespace of the benchmark's own is deleted first**, and not again. -/
theorem removeAssets_deletes {pace : Pace τ} {timeout : τ} {ns : String} {evs : List (Event τ)}
    {r : Except Failure Unit} (h : (removeAssets pace timeout false ns).Leaves evs r) :
    ∃ (text : String) (reply : Except ApiFault Unit) (time : τ) (rest : List (Event τ)),
      evs = .logged .info text :: .asked (.api (.delete ⟨.ns, none, ns⟩)) reply time :: rest ∧
      ∀ e ∈ rest, e.Asks (Question.Removes (· ≠ .ns)) := by
  obtain ⟨_, h₁, rfl⟩ := Action.leaves_log_bind.mp h
  have hbinding : Action.Asks (Question.Removes (· ≠ .ns))
      (Action.apiOrFail (.delete (Assets.bindingRef ns)) : Action τ Unit) :=
    Action.asks_apiOrFail (Assets.bindingRef_kind ns)
  have hwait : Action.Asks (Question.Removes (· ≠ .ns)) (do
      Action.log .info s!"Waiting for namespace {ns} to be deleted"
      waitUntil pace timeout (namespaceGone ns) : Action τ Unit) :=
    Action.asks_bind (Action.asks_log _ _) fun _ => asks_waitUntil (asks_namespaceGone ns)
  rcases Action.leaves_bind.mp h₁ with ⟨x, hx, rfl⟩ | ⟨_, first, rest, hv, h₂, rfl⟩
  · rcases Action.leaves_apiOrFail_bind.mp hx with ⟨fault, time, rfl, -⟩ | ⟨_, time, rest, h₂, rfl⟩
    · exact ⟨_, .error fault, time, [], rfl, fun e he => absurd he List.not_mem_nil⟩
    · exact ⟨_, .ok (), time, rest, rfl, hwait _ _ h₂⟩
  · rcases Action.leaves_apiOrFail_bind.mp hv with ⟨fault, time, rfl, hx⟩ | ⟨_, time, mid, h₃, rfl⟩
    · cases hx
    · refine ⟨_, .ok (), time, mid ++ rest, rfl, fun e he => ?_⟩
      rcases List.mem_append.mp he with he | he
      · exact hwait _ _ h₃ e he
      · exact hbinding _ _ h₂ e he

/-! ### Where it leads -/

omit [TimeScale τ] in
/-- A look at a namespace that has to be gone. -/
theorem guards_namespaceGone (ns : String) :
    (namespaceGone ns : Action τ Bool).Guards (.owes (.gone ns)) fun r t =>
      ∀ gone, r = .ok gone → t = if gone then .free else .owes (.gone ns) := by
  refine Action.guards_ask_bind (fun h => absurd h Bool.false_ne_true) fun answer => ?_
  cases answer with
  | ok _ => exact Action.guards_pure fun gone h => by cases h; rfl
  | error fault =>
    dsimp only
    split
    · rename_i hstatus
      have hfatal : (Question.api (.readNamespace ns)).isFatal (.error fault) = false := by
        show (!fault.hasStatus ApiFault.notFound) = false
        rw [hstatus]
        rfl
      have hmet : (Obligation.gone ns).isMet (.api (.readNamespace ns)) (.error fault) = true := by
        show (ns == ns && fault.hasStatus ApiFault.notFound) = true
        rw [hstatus, beq_self_eq_true]
        rfl
      rw [Standing.replied_owes hfatal rfl, hmet]
      exact Action.guards_pure fun gone h => by cases h; rfl
    · exact Action.guards_throw fun _ h => nomatch h

/-- Deleting a namespace leaves a free run free when it ends well: the namespace has been seen
gone. -/
theorem guards_removeNamespace (pace : Pace τ) (timeout : τ) (ns : String) :
    (removeNamespace pace timeout ns).Guards .free Standing.free.Well := by
  refine Action.guards_apiOrFail_bind (fun _ => rfl) (fun _ => Standing.free.well_error _ _)
    fun _ => ?_
  exact Action.guards_log_bind (guards_waitUntil (guards_namespaceGone ns))

/-- The deletion of an object that is no namespace leaves a free run free. -/
theorem replied_delete {object : ObjectRef} (h : object.kind ≠ .ns) :
    Standing.free.replied (.api (.delete object)) (.ok ()) = .free := by
  obtain ⟨kind, place, name⟩ := object
  cases kind with
  | ns => exact absurd rfl h
  | _ => rfl

omit [TimeScale τ] in
theorem guards_deleteAll {objects : List ObjectRef} (h : ∀ object ∈ objects, object.kind ≠ .ns) :
    (deleteAll objects : Action τ Unit).Guards .free Standing.free.Well := by
  induction objects with
  | nil => exact Action.guards_pure (Standing.free.well_ok ())
  | cons object rest ih =>
    refine Action.guards_apiOrFail_bind (fun _ => rfl) (fun _ => Standing.free.well_error _ _)
      fun _ => ?_
    show Action.Guards (Standing.free.replied (.api (.delete object)) (.ok ())) _ _
    rw [replied_delete (h object List.mem_cons_self)]
    exact ih fun other hmem => h other (List.mem_cons_of_mem _ hmem)

theorem guards_removeAssets (pace : Pace τ) (timeout : τ) (existed : Bool) (ns : String) :
    (removeAssets pace timeout existed ns).Guards .free Standing.free.Well := by
  refine Action.guards_log_bind ?_
  have hbinding : (Action.apiOrFail (.delete (Assets.bindingRef ns)) : Action τ Unit).Guards .free
      Standing.free.Well :=
    Action.guards_apiOrFail (fun _ => rfl) (fun _ => Standing.free.well_error _ _) fun _ _ _ =>
      replied_delete (Assets.bindingRef_kind ns)
  cases existed with
  | true =>
    exact Action.guards_then (guards_deleteAll (Assets.removable_kind ns)) fun _ => hbinding
  | false => exact Action.guards_then (guards_removeNamespace pace timeout ns) fun _ => hbinding

end IngressBench
