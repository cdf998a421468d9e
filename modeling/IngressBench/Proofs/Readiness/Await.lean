import IngressBench.Proofs.Readiness.Check
import IngressBench.Proofs.Wait
import IngressBench.Readiness.Await

/-!
What waiting for a deployment leaves: the watch of the wait, and what follows from it
(`awaitReady_leaves`). A wait that ends well read a ready deployment last (`awaitReady_leaves_ok`);
whatever it ends with, it asked for nothing but that deployment and its pending pods
(`asks_awaitReady`).
-/
namespace IngressBench

variable {τ : Type} [TimeScale τ]

/-- A reading of a deployment, or a listing of the pending pods of its namespace. -/
def Question.LooksAt (ns name : String) (q : Question) : Prop :=
  q = .api (.readDeployment ns name) ∨ ∃ selector, q = .api (.listPods ns selector "Pending")

/-- Looking changes nothing. -/
theorem Question.LooksAt.no_effect {ns name : String} {q : Question} (h : q.LooksAt ns name) :
    q.isEffect = false := by
  rcases h with rfl | ⟨selector, rfl⟩
  · rfl
  · rfl

omit [TimeScale τ] in
/-- A check reads the deployment once; it fails when the reading fails, or when the deployment
cannot be judged. -/
theorem checkReady_leaves {ns name : String} {evs : List (Event τ)}
    {r : Except Failure (Deployment × Bool)} (h : (checkReady ns name).Leaves evs r) :
    (∃ fault time, evs = [.asked (.api (.readDeployment ns name)) (.error fault) time] ∧
        r = .error fault.failure) ∨
      (∃ d time x, evs = [.asked (.api (.readDeployment ns name)) (.ok d) time] ∧
        d.isReady = .error x ∧ r = .error x) ∨
      ∃ d time ready text, evs = [.asked (.api (.readDeployment ns name)) (.ok d) time,
          .logged .debug text] ∧ d.isReady = .ok ready ∧ r = .ok (d, ready) := by
  rcases Action.leaves_apiOrFail_bind.mp h with ⟨fault, time, rfl, rfl⟩ | ⟨d, time, rest, h₁, rfl⟩
  · exact .inl ⟨fault, time, rfl, rfl⟩
  rcases Action.leaves_ofExcept_bind.mp h₁ with ⟨x, hx, rfl, rfl⟩ | ⟨ready, hready, h₂⟩
  · exact .inr (.inl ⟨d, time, x, rfl, hx, rfl⟩)
  cases ready with
  | true =>
    obtain ⟨rest, h₃, rfl⟩ := Action.leaves_log_bind.mp h₂
    obtain ⟨rfl, rfl⟩ := Action.leaves_pure.mp h₃
    exact .inr (.inr ⟨d, time, true, _, rfl, hready, rfl⟩)
  | false =>
    obtain ⟨rest, h₃, rfl⟩ := Action.leaves_log_bind.mp h₂
    obtain ⟨rfl, rfl⟩ := Action.leaves_pure.mp h₃
    exact .inr (.inr ⟨d, time, false, _, rfl, hready, rfl⟩)

/-- What follows the watch of a wait for a deployment: nothing, or the report of a deployment that
is not ready. -/
inductive AfterWatch (ns name : String) : Except Failure (Deployment × Option WaitFault) →
    List (Event τ) → Except Failure Unit → Prop
  | ready {d : Deployment} : AfterWatch ns name (.ok (d, none)) [] (.ok ())
  | failed {x : Failure} : AfterWatch ns name (.error x) [] (.error x)
  | unready {d : Deployment} {fault : WaitFault} {report : List (Event τ)} {r : Except Failure Unit}
      (h : Action.Leaves (do throw (← notReadyFailure ns name fault d)) report r) :
      AfterWatch ns name (.ok (d, some fault)) report r

/-- **A wait for a deployment is its watch, and what follows from it.** -/
theorem awaitReady_leaves {pace : Pace τ} {ns name : String} {timeout : τ}
    {evs : List (Event τ)} {r : Except Failure Unit}
    (h : (awaitReady pace ns name timeout).Leaves evs r) :
    ∃ opening watching report seen, evs = .logged .info opening :: (watching ++ report) ∧
      (watch pace timeout (checkReady ns name)).Leaves watching seen ∧
      AfterWatch ns name seen report r := by
  obtain ⟨rest, h₁, rfl⟩ := Action.leaves_log_bind.mp h
  rcases Action.leaves_bind.mp h₁ with ⟨x, hw, rfl⟩ | ⟨⟨d, fault⟩, watching, report, hw, h₂, rfl⟩
  · exact ⟨_, rest, [], _, by rw [List.append_nil], hw, .failed⟩
  · cases fault with
    | none =>
      obtain ⟨rfl, rfl⟩ := Action.leaves_pure.mp h₂
      exact ⟨_, watching, [], _, rfl, hw, .ready⟩
    | some fault => exact ⟨_, watching, report, _, rfl, hw, .unready h₂⟩

/-- **A wait for a deployment that ends well read a ready deployment last.** -/
theorem awaitReady_leaves_ok {pace : Pace τ} {ns name : String} {timeout : τ}
    {evs : List (Event τ)} (h : (awaitReady pace ns name timeout).Leaves evs (.ok ())) :
    ∃ (opening : String) (polls : List (Event τ)) (d : Deployment) (time : τ) (text : String),
      Polls (checkReady ns name) polls ∧ d.isReady = .ok true ∧
      evs = .logged .info opening ::
        (polls ++ [.asked (.api (.readDeployment ns name)) (.ok d) time, .logged .debug text]) := by
  obtain ⟨opening, watching, report, seen, rfl, hwatch, hends⟩ := awaitReady_leaves h
  cases hends with
  | unready h₁ =>
    rcases Action.leaves_bind.mp h₁ with ⟨x, -, hx⟩ | ⟨x, _, _, -, hx, -⟩
    · cases hx
    · cases (Action.leaves_throw.mp hx).2
  | ready =>
    obtain ⟨polls, last, rfl, hpolls, hlast⟩ := watch_leaves hwatch
    cases hlast with
    | enough hl =>
      rcases checkReady_leaves hl with ⟨_, _, _, hr⟩ | ⟨_, _, _, _, _, hr⟩ |
        ⟨d, time, ready, text, rfl, hready, hr⟩
      · cases hr
      · cases hr
      · cases hr
        exact ⟨opening, polls, _, time, text, hpolls, hready, by rw [List.append_nil]⟩

/-! ### What it asks for -/

omit [TimeScale τ] in
theorem asks_checkReady (ns name : String) :
    (checkReady ns name : Action τ (Deployment × Bool)).Asks (Question.LooksAt ns name) := by
  refine Action.asks_bind (Action.asks_apiOrFail (.inl rfl)) fun d => ?_
  refine Action.asks_bind (Action.asks_ofExcept _) fun ready => ?_
  cases ready with
  | true => exact Action.asks_bind (Action.asks_log _ _) fun _ => Action.asks_pure _
  | false => exact Action.asks_bind (Action.asks_log _ _) fun _ => Action.asks_pure _

omit [TimeScale τ] in
theorem asks_diagnose (ns name : String) (d : Deployment) :
    (diagnose ns d : Action τ Diagnostic).Asks (Question.LooksAt ns name) := by
  refine Action.asks_bind (Action.asks_ofExcept _) fun state => ?_
  refine Action.asks_bind (Action.asks_ask (.inr ⟨_, rfl⟩)) fun answer => ?_
  cases answer with
  | ok pods =>
    exact Action.asks_bind (Action.asks_ofExcept _) fun pending => Action.asks_pure _
  | error fault =>
    cases fault with
    | rejected status reason =>
      exact Action.asks_bind (Action.asks_log _ _) fun _ => Action.asks_pure _
    | unreachable text => exact Action.asks_throw _

omit [TimeScale τ] in
theorem asks_notReadyFailure (ns name : String) (fault : WaitFault) (d : Deployment) :
    (notReadyFailure ns name fault d : Action τ Failure).Asks (Question.LooksAt ns name) :=
  Action.asks_bind (asks_diagnose ns name d) fun _ => Action.asks_pure _

theorem asks_awaitReady (pace : Pace τ) (ns name : String) (timeout : τ) :
    (awaitReady pace ns name timeout).Asks (Question.LooksAt ns name) := by
  refine Action.asks_bind (Action.asks_log _ _) fun _ => ?_
  refine Action.asks_bind (asks_watch (asks_checkReady ns name)) fun (d, fault) => ?_
  cases fault with
  | none => exact Action.asks_pure _
  | some fault =>
    exact Action.asks_bind (asks_notReadyFailure ns name fault d) fun _ => Action.asks_throw _

/-! ### Where it leads -/

/-- A reading that can be judged meets the obligation when the deployment is ready. -/
theorem replied_readDeployment {ns name : String} {d : Deployment} {ready : Bool}
    (h : d.isReady = .ok ready) :
    (Standing.owes (.ready ns name)).replied (.api (.readDeployment ns name)) (.ok d) =
      if ready then .free else .owes (.ready ns name) := by
  obtain ⟨_, status, _, hs, _⟩ := Deployment.isReady_ok h
  have hfatal : (Question.api (.readDeployment ns name)).isFatal (.ok d) = false := by
    show d.status.isNone = false
    rw [hs]
    rfl
  have hmet :
      (Obligation.ready ns name).isMet (.api (.readDeployment ns name)) (.ok d) = ready := by
    show (ns == ns && name == name && d.isReady.toOption == some true) = ready
    rw [h, beq_self_eq_true, beq_self_eq_true]
    cases ready <;> rfl
  rw [Standing.replied_owes hfatal rfl, hmet]

omit [TimeScale τ] in
/-- A look at a deployment that has to be ready. -/
theorem guards_checkReady (ns name : String) :
    (checkReady ns name : Action τ (Deployment × Bool)).Guards (.owes (.ready ns name))
      (LooksFrom (.owes (.ready ns name)) .free) := by
  refine Action.guards_apiOrFail_bind (fun h => absurd h Bool.false_ne_true)
    (fun _ _ _ h => nomatch h) fun d => ?_
  refine Action.guards_ofExcept_bind (fun x _ _ _ h => nomatch h) fun ready hready => ?_
  rw [replied_readDeployment hready]
  cases ready with
  | true => exact Action.guards_log_bind (Action.guards_pure fun _ _ h => by cases h; rfl)
  | false => exact Action.guards_log_bind (Action.guards_pure fun _ _ h => by cases h; rfl)

/-- **A wait for a deployment that ends well meets the obligation**, and changes nothing. -/
theorem guards_awaitReady (pace : Pace τ) (ns name : String) (timeout : τ) :
    (awaitReady pace ns name timeout).Guards (.owes (.ready ns name)) Standing.free.Well := by
  refine Action.guards_log_bind ?_
  refine Action.guards_bind (guards_watch (guards_checkReady ns name))
    (fun x t _ => Standing.free.well_error _ _) fun (d, fault) t ht => ?_
  cases fault with
  | none => exact Action.guards_pure fun _ _ => ht d rfl
  | some fault =>
    refine Action.guards_bind (Action.guards_of_asks ?_ t)
      (fun x u _ => Standing.free.well_error _ _)
      fun x u _ => Action.guards_throw (Standing.free.well_error _ _)
    exact (asks_notReadyFailure ns name fault d).mono fun q => Question.LooksAt.no_effect

end IngressBench
