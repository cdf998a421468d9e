import IngressBench.Deploy
import IngressBench.Proofs.Program.Standing

/-!
What creating the objects of a benchmark leaves. The namespace is created first and once, and a
deployment that ends well tells whether that creation found the namespace there already
(`deploy_leaves`).
-/
namespace IngressBench

variable {τ : Type}

/-! ### What is asked for -/

/-- The creation of one of the objects of a list. -/
def Question.Creates (objects : List Manifest) (q : Question) : Prop :=
  ∃ object ∈ objects, q = .api (.create object)

theorem asks_create {object : Manifest} {objects : List Manifest} (h : object ∈ objects) :
    (create object : Action τ Bool).Asks (Question.Creates objects) := by
  refine Action.asks_bind (Action.asks_ask ⟨object, h, rfl⟩) fun answer => ?_
  cases answer with
  | ok _ => exact Action.asks_pure _
  | error fault =>
    dsimp only
    split
    · exact Action.asks_pure _
    · exact Action.asks_throw _

theorem asks_createAll (objects : List Manifest) :
    (createAll objects : Action τ Unit).Asks (Question.Creates objects) := by
  induction objects with
  | nil => exact Action.asks_pure _
  | cons object rest ih =>
    refine Action.asks_bind (asks_create List.mem_cons_self) fun _ => ih.mono ?_
    intro q ⟨other, hmem, hq⟩
    exact ⟨other, List.mem_cons_of_mem _ hmem, hq⟩

/-- The objects of a benchmark in the order of their creation. -/
def Assets.all (ns : String) : List Manifest :=
  Assets.namespaceManifest ns :: Assets.inside ns

theorem asks_deploy (ns : String) :
    (deploy ns : Action τ Bool).Asks (Question.Creates (Assets.all ns)) := by
  refine Action.asks_bind (Action.asks_log _ _) fun _ => ?_
  refine Action.asks_bind (asks_create List.mem_cons_self) fun existed => ?_
  have hrest : ∀ u : Unit, (do createAll (Assets.inside ns); return existed : Action τ Bool).Asks
      (Question.Creates (Assets.all ns)) := fun _ => by
    refine Action.asks_bind ((asks_createAll _).mono ?_) fun _ => Action.asks_pure _
    intro q ⟨other, hmem, hq⟩
    exact ⟨other, List.mem_cons_of_mem _ hmem, hq⟩
  cases existed with
  | true => exact Action.asks_bind (Action.asks_log _ _) fun u => hrest u
  | false => exact hrest ()

/-! ### What it leaves -/

/-- What a creation is answered when it tells whether the object was there already. -/
def Tells (existed : Bool) (reply : Except ApiFault Unit) : Prop :=
  match reply with
  | .ok () => existed = false
  | .error fault => existed = true ∧ fault.hasStatus ApiFault.alreadyExists = true

/-- A creation is one call. -/
theorem create_leaves {object : Manifest} {evs : List (Event τ)} {r : Except Failure Bool}
    (h : (create object).Leaves evs r) :
    ∃ (reply : Except ApiFault Unit) (time : τ), evs = [.asked (.api (.create object)) reply time] ∧
      ∀ existed, r = .ok existed → Tells existed reply := by
  obtain ⟨reply, time, rest, hr, rfl⟩ := Action.leaves_ask_bind.mp h
  refine ⟨reply, time, ?_⟩
  cases reply with
  | ok _ =>
    obtain ⟨rfl, rfl⟩ := Action.leaves_pure.mp hr
    exact ⟨rfl, fun existed h => (Except.ok.inj h).symm⟩
  | error fault =>
    dsimp only at hr
    split at hr
    · rename_i hstatus
      obtain ⟨rfl, rfl⟩ := Action.leaves_pure.mp hr
      exact ⟨rfl, fun existed h => ⟨(Except.ok.inj h).symm, hstatus⟩⟩
    · obtain ⟨rfl, rfl⟩ := Action.leaves_throw.mp hr
      exact ⟨rfl, fun existed h => nomatch h⟩

/-- **The namespace is created first**, the other objects after it, and what a deployment tells is
what the creation of the namespace was answered. -/
theorem deploy_leaves {ns : String} {evs : List (Event τ)} {r : Except Failure Bool}
    (h : (deploy ns).Leaves evs r) :
    ∃ (text : String) (reply : Except ApiFault Unit) (time : τ) (rest : List (Event τ)),
      evs = .logged .info text ::
        .asked (.api (.create (Assets.namespaceManifest ns))) reply time :: rest ∧
      (∀ e ∈ rest, e.Asks (Question.Creates (Assets.inside ns))) ∧
      ∀ existed, r = .ok existed → Tells existed reply := by
  obtain ⟨rest, h₁, rfl⟩ := Action.leaves_log_bind.mp h
  rcases Action.leaves_bind.mp h₁ with ⟨x, hx, rfl⟩ | ⟨existed, first, rest, hv, h₂, rfl⟩
  · obtain ⟨reply, time, rfl, -⟩ := create_leaves hx
    exact ⟨_, reply, time, [], rfl, fun e he => absurd he List.not_mem_nil, fun _ h => nomatch h⟩
  · obtain ⟨reply, time, rfl, htells⟩ := create_leaves hv
    have hall : Action.Asks (Question.Creates (Assets.inside ns))
        (do createAll (Assets.inside ns); return existed : Action τ Bool) :=
      Action.asks_bind (asks_createAll _) fun _ => Action.asks_pure _
    have hend : ∀ {evs : List (Event τ)} {r : Except Failure Bool}, Action.Leaves
        (do createAll (Assets.inside ns); return existed) evs r →
          ∀ b, r = .ok b → b = existed := by
      intro evs r hl b hb
      rcases Action.leaves_bind.mp hl with ⟨_, -, rfl⟩ | ⟨_, _, _, -, hp, -⟩
      · cases hb
      · rw [(Action.leaves_pure.mp hp).2] at hb
        exact (Except.ok.inj hb).symm
    cases existed with
    | true =>
      obtain ⟨last, h₃, rfl⟩ := Action.leaves_log_bind.mp h₂
      refine ⟨_, reply, time, _, rfl, fun e he => ?_, fun b hb => hend h₃ b hb ▸ htells _ rfl⟩
      rcases List.mem_cons.mp he with rfl | he
      · trivial
      · exact hall _ _ h₃ e he
    | false =>
      exact ⟨_, reply, time, rest, rfl, hall _ _ h₂, fun b hb => hend h₂ b hb ▸ htells _ rfl⟩

/-! ### Where it leads -/

/-- A creation that ends well leaves a free run free. -/
theorem guards_create (object : Manifest) :
    (create object : Action τ Bool).Guards .free Standing.free.Well := by
  refine Action.guards_ask_bind (fun _ => rfl) fun answer => ?_
  cases answer with
  | ok _ => exact Action.guards_pure (Standing.free.well_ok _)
  | error fault =>
    dsimp only
    split
    · rename_i hstatus
      have hfree : Standing.free.replied (.api (.create object)) (.error fault) = .free := by
        refine Standing.replied_free (q := .api (.create object)) ?_ rfl
        show (!fault.hasStatus ApiFault.alreadyExists) = false
        rw [hstatus]
        rfl
      rw [hfree]
      exact Action.guards_pure (Standing.free.well_ok _)
    · exact Action.guards_throw (Standing.free.well_error _ _)

theorem guards_createAll (objects : List Manifest) :
    (createAll objects : Action τ Unit).Guards .free Standing.free.Well := by
  induction objects with
  | nil => exact Action.guards_pure (Standing.free.well_ok ())
  | cons object rest ih => exact Action.guards_then (guards_create object) fun _ => ih

theorem guards_deploy (ns : String) :
    (deploy ns : Action τ Bool).Guards .free Standing.free.Well := by
  refine Action.guards_log_bind (Action.guards_then (guards_create _) fun existed => ?_)
  have hrest : ∀ u : Unit, (do createAll (Assets.inside ns); return existed : Action τ Bool).Guards
      .free Standing.free.Well := fun _ =>
    Action.guards_then (guards_createAll _) fun _ => Action.guards_pure (Standing.free.well_ok _)
  cases existed with
  | true => exact Action.guards_log_bind (hrest ())
  | false => exact hrest ()

end IngressBench
