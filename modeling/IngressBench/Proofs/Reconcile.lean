import IngressBench.Proofs.Readiness.Await
import IngressBench.Reconcile

/-!
What scaling leaves. When a deployment has been scaled, it was read last in one of two ways
(`Settled`): as a deployment that had as many ready replicas as were asked for, and was taken as it
is; or as one whose counts all agree, after the cluster accepted the count that was asked for.
Scaling both deployments settles both (`reconcile_settles`), since neither is touched by what is
done to the other.
-/
namespace IngressBench

variable {τ : Type} [TimeScale τ]

/-! ### Events about a deployment -/

/-- A reading of a deployment, or a change of its count of replicas. -/
def Question.Concerns (ns name : String) (q : Question) : Prop :=
  q = .api (.readDeployment ns name) ∨ ∃ replicas, q = .api (.scale ns name replicas)

/-- A change of the count of replicas of a deployment. -/
def Question.Scales (ns name : String) (q : Question) : Prop :=
  ∃ replicas, q = .api (.scale ns name replicas)

/-- The last reading of a deployment shows as many ready replicas as were asked for, and nothing has
been changed since; or it shows a deployment whose counts all agree, and what the cluster accepted
last before it was the count that was asked for. -/
def Settled (ns name : String) (replicas : Int) (evs : List (Event τ)) : Prop :=
  ∃ (before : List (Event τ)) (d : Deployment) (time : τ) (since : List (Event τ)),
    evs = before ++ .asked (.api (.readDeployment ns name)) (.ok d) time :: since ∧
    (∀ e ∈ since, e.Asks fun q => ¬ q.Concerns ns name) ∧
    (d.HasReady replicas ∨ d.Agrees ∧
      ∃ (first : List (Event τ)) (accepted : τ) (between : List (Event τ)),
        before = first ++ .asked (.api (.scale ns name replicas)) (.ok ()) accepted :: between ∧
        ∀ e ∈ between, e.Asks fun q => ¬ q.Scales ns name)

omit [TimeScale τ] in
/-- What came before does not matter. -/
theorem Settled.after {ns name : String} {replicas : Int} {evs : List (Event τ)}
    (h : Settled ns name replicas evs) (first : List (Event τ)) :
    Settled ns name replicas (first ++ evs) := by
  obtain ⟨before, d, time, since, rfl, hsince, hseen⟩ := h
  refine ⟨first ++ before, d, time, since, (List.append_assoc ..).symm, hsince, ?_⟩
  rcases hseen with hready | ⟨hready, start, accepted, between, rfl, hbetween⟩
  · exact .inl hready
  · exact .inr ⟨hready, first ++ start, accepted, between, (List.append_assoc ..).symm, hbetween⟩

omit [TimeScale τ] in
/-- What does not concern the deployment leaves it settled. -/
theorem Settled.before {ns name : String} {replicas : Int} {evs : List (Event τ)}
    (h : Settled ns name replicas evs) {rest : List (Event τ)}
    (hrest : ∀ e ∈ rest, e.Asks fun q => ¬ q.Concerns ns name) :
    Settled ns name replicas (evs ++ rest) := by
  obtain ⟨before, d, time, since, rfl, hsince, hseen⟩ := h
  refine ⟨before, d, time, since ++ rest, List.append_assoc .., fun e he => ?_, hseen⟩
  rcases List.mem_append.mp he with he | he
  · exact hsince e he
  · exact hrest e he

/-! ### What scaling asks for -/

/-- What is asked for while a deployment is brought to its replicas. -/
def Question.Handles (ns name : String) (q : Question) : Prop :=
  q.LooksAt ns name ∨ q.Scales ns name

theorem Question.LooksAt.no_scale {ns name n m : String} {q : Question} (h : q.LooksAt n m) :
    ¬ q.Scales ns name := by
  intro ⟨replicas, hq⟩
  rcases h with rfl | ⟨selector, rfl⟩
  · cases hq
  · cases hq

/-- What is done to one deployment does not concern another one. -/
theorem Question.Handles.not_concerns {ns name other : String} {q : Question}
    (h : q.Handles ns name) (hne : name ≠ other) : ¬ q.Concerns ns other := by
  intro hc
  rcases hc with rfl | ⟨replicas, rfl⟩
  · rcases h with (h | ⟨_, h⟩) | ⟨_, h⟩
    · cases h
      exact hne rfl
    · cases h
    · cases h
  · rcases h with (h | ⟨_, h⟩) | ⟨_, h⟩
    · cases h
    · cases h
    · cases h
      exact hne rfl

omit [TimeScale τ] in
/-- The report of a deployment that is not ready goes to the log only. -/
theorem asks_reportNotReady {P : Question → Prop} (report : NotReady) :
    (reportNotReady report : Action τ Unit).Asks P := by
  unfold reportNotReady
  refine Action.asks_bind (Action.asks_log _ _) fun _ => ?_
  refine Action.asks_bind ?_ fun _ => Action.asks_pure _
  induction (report.diagnostic.map Diagnostic.pending).getD [] with
  | nil => exact Action.asks_pure _
  | cons entry rest ih =>
    rw [List.forIn_cons]
    refine Action.asks_bind
      (Action.asks_bind (Action.asks_log _ _) fun _ => Action.asks_pure _) fun step => ?_
    cases step with
    | done _ => exact Action.asks_pure _
    | yield _ => exact ih

theorem asks_awaitReported (pace : Pace τ) (ns name : String) (timeout : τ) :
    (awaitReported pace ns name timeout).Asks (Question.LooksAt ns name) := by
  refine Action.asks_bind (Action.asks_attempt (asks_awaitReady pace ns name timeout)) fun e => ?_
  cases e with
  | ok _ => exact Action.asks_pure _
  | error failure =>
    cases failure with
    | notReady report =>
      exact Action.asks_bind (asks_reportNotReady report) fun _ => Action.asks_throw _
    | _ => exact Action.asks_throw _

theorem asks_scaleTo (pace : Pace τ) (timeout : τ) (ns name : String) (replicas : Int) :
    (scaleTo pace timeout ns name replicas).Asks (Question.Handles ns name) := by
  refine Action.asks_bind (Action.asks_apiOrFail (.inl (.inl rfl))) fun d => ?_
  refine Action.asks_bind (Action.asks_ofExcept _) fun ready => ?_
  split
  · exact Action.asks_bind (Action.asks_log _ _) fun _ => Action.asks_pure _
  · refine Action.asks_bind (Action.asks_log _ _) fun _ => ?_
    refine Action.asks_bind (Action.asks_apiOrFail (.inr ⟨replicas, rfl⟩)) fun _ => ?_
    refine Action.asks_bind ?_ fun _ => Action.asks_pure _
    exact (asks_awaitReported pace ns name timeout).mono fun _ => .inl

/-! ### What it leaves -/

theorem awaitReported_leaves_ok {pace : Pace τ} {ns name : String} {timeout : τ}
    {evs : List (Event τ)} (h : (awaitReported pace ns name timeout).Leaves evs (.ok ())) :
    (awaitReady pace ns name timeout).Leaves evs (.ok ()) := by
  obtain ⟨e, first, rest, he, hr, rfl⟩ := Action.leaves_attempt_bind.mp h
  cases e with
  | ok _ =>
    obtain ⟨rfl, -⟩ := Action.leaves_pure.mp hr
    rw [List.append_nil]
    exact he
  | error failure =>
    cases failure with
    | notReady report =>
      rcases Action.leaves_bind.mp hr with ⟨_, -, hx⟩ | ⟨_, _, _, -, hx, -⟩
      · cases hx
      · cases (Action.leaves_throw.mp hx).2
    | _ => cases (Action.leaves_throw.mp hr).2

/-- **A deployment that has been scaled is settled.** -/
theorem scaleTo_settles {pace : Pace τ} {timeout : τ} {ns name : String} {replicas : Int}
    {evs : List (Event τ)} {changed : Bool}
    (h : (scaleTo pace timeout ns name replicas).Leaves evs (.ok changed)) :
    Settled ns name replicas evs := by
  rcases Action.leaves_apiOrFail_bind.mp h with ⟨_, _, _, hx⟩ | ⟨d, time, rest, h₁, rfl⟩
  · cases hx
  rcases Action.leaves_ofExcept_bind.mp h₁ with ⟨_, _, _, hx⟩ | ⟨ready, hready, h₂⟩
  · cases hx
  split at h₂
  · -- The deployment is taken as it is.
    rename_i heq
    obtain ⟨_, h₃, rfl⟩ := Action.leaves_log_bind.mp h₂
    obtain ⟨rfl, -⟩ := Action.leaves_pure.mp h₃
    obtain rfl : ready = replicas := eq_of_beq heq
    refine ⟨[], d, time, _, rfl, fun e he => ?_, .inl (Deployment.readyCount_ok hready)⟩
    obtain rfl := List.mem_singleton.mp he
    trivial
  · -- The count is changed, and a wait for the deployment ends well.
    obtain ⟨_, h₃, rfl⟩ := Action.leaves_log_bind.mp h₂
    rcases Action.leaves_apiOrFail_bind.mp h₃ with ⟨_, _, _, hx⟩ | ⟨_, accepted, _, h₄, rfl⟩
    · cases hx
    rcases Action.leaves_bind.mp h₄ with ⟨_, -, hx⟩ | ⟨_, waiting, _, hw, h₅, rfl⟩
    · cases hx
    obtain ⟨rfl, -⟩ := Action.leaves_pure.mp h₅
    rw [List.append_nil]
    have hasks := asks_awaitReported pace ns name timeout _ _ hw
    obtain ⟨opening, polls, seen, at_, text, -, hseen, rfl⟩ :=
      awaitReady_leaves_ok (awaitReported_leaves_ok hw)
    refine ⟨.asked (.api (.readDeployment ns name)) (.ok d) time :: .logged .info _ ::
      .asked (.api (.scale ns name replicas)) (.ok ()) accepted :: .logged .info opening :: polls,
      seen, at_, [.logged .debug text], rfl, fun e he => ?_, .inr ⟨Deployment.isReady_true hseen,
      [.asked (.api (.readDeployment ns name)) (.ok d) time, .logged .info _], accepted,
      .logged .info opening :: polls, rfl, fun e he => ?_⟩⟩
    · obtain rfl := List.mem_singleton.mp he
      trivial
    · have hmem : e ∈ .logged .info opening :: (polls ++
          [.asked (.api (.readDeployment ns name)) (.ok seen) at_, .logged .debug text]) := by
        rw [← List.cons_append]
        exact List.mem_append_left _ he
      exact (hasks e hmem).mono fun _ => Question.LooksAt.no_scale

/-- **Scaling settles the servers and the clients.** -/
theorem reconcile_settles {pace : Pace τ} {timeout : τ} {ns : String} {servers clients : Int}
    {evs : List (Event τ)}
    (h : (reconcile pace timeout ns servers clients).Leaves evs (.ok ())) :
    Settled ns Assets.serverName servers evs ∧ Settled ns Assets.clientName clients evs := by
  rcases Action.leaves_bind.mp h with ⟨_, -, hx⟩ | ⟨_, first, _, hs, h₁, rfl⟩
  · cases hx
  rcases Action.leaves_bind.mp h₁ with ⟨_, -, hx⟩ | ⟨_, second, _, hc, h₂, rfl⟩
  · cases hx
  obtain ⟨rfl, -⟩ := Action.leaves_pure.mp h₂
  rw [List.append_nil]
  refine ⟨(scaleTo_settles hs).before fun e he => ?_, (scaleTo_settles hc).after first⟩
  have hne : Assets.clientName ≠ Assets.serverName := by decide
  exact (asks_scaleTo pace timeout ns _ clients _ _ hc e he).mono fun _ hq => hq.not_concerns hne

/-! ### Where it leads -/

/-- A wait that ends well meets the obligation, whatever is reported otherwise. -/
theorem guards_awaitReported (pace : Pace τ) (ns name : String) (timeout : τ) :
    (awaitReported pace ns name timeout).Guards (.owes (.ready ns name)) Standing.free.Well := by
  refine Action.guards_attempt_bind (guards_awaitReady pace ns name timeout) fun e t ht => ?_
  cases e with
  | ok _ => exact Action.guards_pure fun _ _ => ht () rfl
  | error failure =>
    have hreport : ∀ report, (reportNotReady report : Action τ Unit).Guards t fun _ _ => True :=
      fun report => Action.guards_of_asks (asks_reportNotReady report) t
    have hthrow : ∀ u, (throw failure : Action τ Unit).Guards u Standing.free.Well :=
      fun u => Action.guards_throw (Standing.free.well_error _ _)
    cases failure with
    | notReady report =>
      exact Action.guards_bind (hreport report) (fun _ _ _ => Standing.free.well_error _ _)
        fun _ u _ => hthrow u
    | _ => exact hthrow t

/-- Scaling leaves a free run free when it ends well. -/
theorem guards_scaleTo (pace : Pace τ) (timeout : τ) (ns name : String) (replicas : Int) :
    (scaleTo pace timeout ns name replicas).Guards .free Standing.free.Well := by
  refine Action.guards_apiOrFail_bind (fun _ => rfl) (fun _ => Standing.free.well_error _ _)
    fun d => ?_
  refine Action.guards_ofExcept_bind (fun _ _ => Standing.free.well_error _ _)
    fun ready hready => ?_
  have hread : Standing.free.replied (.api (.readDeployment ns name)) (.ok d) = .free := by
    obtain ⟨status, hs, -⟩ := Deployment.readyCount_ok hready
    refine Standing.replied_free (q := .api (.readDeployment ns name)) ?_ rfl
    show d.status.isNone = false
    rw [hs]
    rfl
  rw [hread]
  split
  · exact Action.guards_log_bind (Action.guards_pure (Standing.free.well_ok _))
  · refine Action.guards_log_bind (Action.guards_apiOrFail_bind (fun _ => rfl)
      (fun _ => Standing.free.well_error _ _) fun _ => ?_)
    refine Action.guards_then (guards_awaitReported pace ns name timeout) fun _ => ?_
    exact Action.guards_pure (Standing.free.well_ok _)

theorem guards_reconcile (pace : Pace τ) (timeout : τ) (ns : String) (servers clients : Int) :
    (reconcile pace timeout ns servers clients).Guards .free Standing.free.Well := by
  refine Action.guards_then (guards_scaleTo pace timeout ns _ servers) fun _ => ?_
  refine Action.guards_then (guards_scaleTo pace timeout ns _ clients) fun _ => ?_
  exact Action.guards_pure (Standing.free.well_ok ())

end IngressBench
