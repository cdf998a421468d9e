import IngressBench.Proofs.Readiness.Await
import IngressBench.Proofs.Readiness.Pending
import IngressBench.Proofs.Signals.Heeds
import IngressBench.Reconcile
import IngressBench.Teardown
import IngressBench.Tuning.Apply

/-!
Waits heed signals. A wait that is stopped leaves nothing but a report after the stop, and whatever
is built on a wait (scaling, tuning, removing a namespace) fails as cancelled when the wait does
(`heeds_awaitReady`, `heeds_reconcile`, `Tuning.heeds_apply`, `heeds_removeAssets`).
-/
namespace IngressBench

variable {τ β γ : Type}

/-! ### Reports -/

theorem plain_completed (state : Diagnostic) (reply : Except ApiFault (Option (Listing Pod))) :
    Plain (state.completed reply) := by
  cases reply with
  | ok pods =>
    exact plain_bind (plain_bind (Listing.plain_all pods) fun _ => plain_pendingOf _) fun _ =>
      plain_ok _
  | error fault =>
    cases fault with
    | rejected status reason => exact plain_ok _
    | unreachable text => exact plain_error rfl

/-- A report about a deployment leaves lines of the log and one listing at most. -/
theorem diagnose_leaves {ns : String} {d : Deployment} {evs : List (Event τ)}
    {r : Except Failure Diagnostic} (h : (diagnose ns d).Leaves evs r) :
    (∀ e ∈ evs, e.Reports) ∧ Plain r ∧
      (d.WellFormed → (∀ e ∈ evs, e.Sound) → ∃ diagnostic, r = .ok diagnostic) := by
  rcases leaves_diagnose h with ⟨x, hx, rfl, rfl⟩ |
    ⟨state, reply, time, lines, hstate, rfl, rfl, hlines⟩
  · refine ⟨fun e he => absurd he List.not_mem_nil, plain_error (d.plain_state ns x hx),
      fun hd _ => ?_⟩
    obtain ⟨state, hstate, -⟩ := hd.state_tells ns
    rw [hx] at hstate
    cases hstate
  · refine ⟨List.forall_mem_cons.mpr ⟨rfl, fun e he => ?_⟩, plain_completed state reply,
      fun _ hsound => ?_⟩
    · obtain ⟨text, rfl⟩ := hlines e he
      trivial
    · exact state.completed_ok (hsound _ List.mem_cons_self rfl)

variable [TimeScale τ]

/-! ### Waits -/

/-- What a wait with calm looks leaves: calm events and an end that is not cancelled; or its last
look, which did not see enough, and the stop of the run. -/
inductive Waited (look : Action τ (β × Bool)) :
    List (Event τ) → Except Failure (β × Option WaitFault) → Prop where
  | ended {evs : List (Event τ)} {r : Except Failure (β × Option WaitFault)} :
      (∀ e ∈ evs, e.Calm) → Plain r →
        (∀ seen fault, r = .ok (seen, some fault) → fault.isCancelled = false) → Waited look evs r
  | stopped {before last : List (Event τ)} {seen : β} (notice : List (Level × String)) :
      (∀ e ∈ before ++ last, e.Calm) → look.Leaves last (.ok (seen, false)) →
        Waited look ((before ++ last) ++ (notice.map (fun (l, t) => Event.logged l t) ++ [.stopped]))
          (.ok (seen, some .cancelled))

omit [TimeScale τ] in
theorem Polls.calm {look : Action τ (β × Bool)} (hlook : look.Calm) {evs : List (Event τ)}
    (h : Polls look evs) : ∀ e ∈ evs, e.Calm :=
  h.only (fun _ _ hl => (hlook _ _ hl).1) fun _ => trivial

theorem watchLoop_waited {pace : Pace τ} {timeout deadline : τ} {look : Action τ (β × Bool)}
    (hlook : look.Calm) {budget : Nat} {evs : List (Event τ)}
    {r : Except Failure (β × Option WaitFault)}
    (h : (watchLoop pace timeout deadline look budget).Leaves evs r) : Waited look evs r := by
  obtain ⟨polls, last, rfl, hpolls, hlast⟩ := watchLoop_leaves h
  have hcalm : ∀ {row : List (Event τ)}, (∀ e ∈ row, e.Calm) → ∀ e ∈ polls ++ row, e.Calm :=
    fun hrow e he => (List.mem_append.mp he).elim (hpolls.calm hlook e) (hrow e)
  cases hlast with
  | enough hl => exact .ended (hcalm (hlook _ _ hl).1) (plain_ok _) fun _ _ h => nomatch h
  | late hl =>
    refine .ended (hcalm (hlook _ _ hl).1) (plain_ok _) fun seen fault h => ?_
    cases h
    rfl
  | failed hl =>
    obtain ⟨hevents, hplain⟩ := hlook _ _ hl
    exact .ended (hcalm hevents) (plain_error (hplain _ rfl)) fun _ _ h => nomatch h
  | cancelled notice _ hl =>
    rw [← List.append_assoc]
    exact .stopped notice (hcalm (hlook _ _ hl).1) hl

omit [TimeScale τ] in
/-- What follows a wait: after a wait that was not cancelled anything that heeds signals, and after a
cancelled one a report and the failure. -/
theorem heeds_waited_bind (look : Action τ (β × Bool)) {w : Action τ (β × Option WaitFault)}
    {f : β × Option WaitFault → Action τ γ} (hw : ∀ evs r, w.Leaves evs r → Waited look evs r)
    (hrest : ∀ seen fault, (∀ x, fault = some x → x.isCancelled = false) → (f (seen, fault)).Heeds)
    (hstop : ∀ seen last evs r, look.Leaves last (.ok (seen, false)) →
      (f (seen, some .cancelled)).Leaves evs r → (∀ e ∈ evs, e.Reports) ∧
        (∀ x, r = .error x → x.isSignal = true → x.isCancelled = true) ∧
        ((∀ e ∈ last ++ evs, e.Sound) → ∃ x, r = .error x ∧ x.isCancelled = true)) :
    (w >>= f).Heeds := by
  intro evs r h
  rcases Action.leaves_bind.mp h with ⟨x, hx, rfl⟩ | ⟨⟨seen, fault⟩, first, rest, hv, h₁, rfl⟩
  · cases hw _ _ hx with
    | ended hcalm hplain _ => exact heeded_of_calm hcalm (plain_error (hplain x rfl))
  · cases hw _ _ hv with
    | ended hcalm _ hfault =>
      have hheeds : (f (seen, fault)).Heeds := hrest seen fault fun x hx =>
        hfault seen x (by rw [hx])
      exact (heeded_of_calm hcalm (plain_ok ())).append (plain_ok ()) (hheeds _ _ h₁)
    | @stopped before last _ notice hcalm hlast =>
      -- What the last look told decides whether a report can be made, so it is kept beside it.
      obtain ⟨hreports, hsignal, hsound⟩ := hstop _ _ _ _ hlast h₁
      have hrow : before ++ last ++ (notice.map (fun (l, t) => Event.logged l t) ++ [.stopped]) ++
          rest = (before ++ last ++ notice.map fun (l, t) => Event.logged l t) ++
            .stopped :: rest := by simp
      rw [hrow]
      refine heeded_of_stop (fun e he => ?_) hreports hsignal fun hall => hsound fun e he => ?_
      · rcases List.mem_append.mp he with he | he
        · exact hcalm e he
        · obtain ⟨line, -, rfl⟩ := List.mem_map.mp he
          trivial
      · refine hall e ?_
        rcases List.mem_append.mp he with he | he
        · exact List.mem_append_left _ (List.mem_append_left _ (List.mem_append_right _ he))
        · exact List.mem_append_right _ (List.mem_cons_of_mem _ he)

/-! ### Deployments -/

omit [TimeScale τ] in
theorem calm_checkReady (ns name : String) :
    (checkReady ns name : Action τ (Deployment × Bool)).Calm := by
  intro evs r h
  rcases checkReady_leaves h with ⟨fault, time, rfl, rfl⟩ | ⟨d, time, x, rfl, hx, rfl⟩ |
    ⟨d, time, ready, text, rfl, -, rfl⟩
  · exact ⟨List.forall_mem_singleton.mpr rfl, plain_error (Action.failure_plain fault)⟩
  · exact ⟨List.forall_mem_singleton.mpr rfl, plain_error (d.plain_isReady x hx)⟩
  · exact ⟨List.forall_mem_cons.mpr ⟨rfl, List.forall_mem_singleton.mpr trivial⟩, plain_ok _⟩

omit [TimeScale τ] in
/-- A check that succeeds has read the deployment that it tells. -/
theorem checkReady_sound {ns name : String} {evs : List (Event τ)} {d : Deployment} {ready : Bool}
    (h : (checkReady ns name).Leaves evs (.ok (d, ready))) (hsound : ∀ e ∈ evs, e.Sound) :
    d.WellFormed := by
  rcases checkReady_leaves h with
    ⟨_, _, _, hr⟩ | ⟨_, _, _, _, _, hr⟩ | ⟨_, time, _, text, rfl, _, hr⟩
  · cases hr
  · cases hr
  · cases hr
    exact hsound _ List.mem_cons_self

omit [TimeScale τ] in
/-- What a wait for a deployment ends with after the fault of the wait. -/
theorem throwNotReady_leaves {ns name : String} {fault : WaitFault} {d : Deployment}
    {evs : List (Event τ)} {r : Except Failure Unit}
    (h : Action.Leaves (do throw (← notReadyFailure ns name fault d)) evs r) :
    (∀ e ∈ evs, e.Reports) ∧
      (∃ x, r = .error x ∧ (x.isSignal = true → fault.isCancelled = true ∧ x.isCancelled = true)) ∧
      (d.WellFormed → (∀ e ∈ evs, e.Sound) →
        ∃ x, r = .error x ∧ x.isCancelled = fault.isCancelled) := by
  obtain ⟨told, hdiagnose, hends⟩ := leaves_throwNotReady h
  obtain ⟨hreports, hplain, hok⟩ := diagnose_leaves hdiagnose
  rcases hends with ⟨x, rfl, rfl⟩ | ⟨g, message, rfl, rfl⟩
  · refine ⟨hreports, ⟨x, rfl, fun hs => ?_⟩, fun hd hsound => ?_⟩
    · rw [hplain x rfl] at hs
      cases hs
    · obtain ⟨_, hg⟩ := hok hd hsound
      cases hg
  · exact ⟨hreports, ⟨_, rfl, fun hs => ⟨hs, hs⟩⟩, fun _ _ => ⟨_, rfl, rfl⟩⟩

/-- **A wait for a deployment heeds signals**: when it is stopped it reports, and fails as
cancelled. -/
theorem heeds_awaitReady (pace : Pace τ) (ns name : String) (timeout : τ) :
    (awaitReady pace ns name timeout).Heeds := by
  refine Action.heeds_bind (Action.calm_log _ _).heeds fun _ => ?_
  refine heeds_waited_bind (checkReady ns name) (fun evs r h => ?_) (fun d fault hfault => ?_)
    fun d last evs r hlast h => ?_
  · obtain ⟨now, hloop⟩ := Action.leaves_clock_bind.mp h
    exact watchLoop_waited (calm_checkReady ns name) hloop
  · cases fault with
    | none => exact Action.heeds_pure _
    | some fault =>
      intro evs r h
      obtain ⟨hreports, ⟨x, rfl, hsignal⟩, -⟩ := throwNotReady_leaves h
      refine heeded_of_calm (fun e he => (hreports e he).calm) (plain_error ?_)
      rw [← Bool.not_eq_true]
      intro hs
      rw [hfault fault rfl] at hsignal
      exact absurd (hsignal hs).1 Bool.false_ne_true
  · obtain ⟨hreports, ⟨x, rfl, hsignal⟩, hsound⟩ := throwNotReady_leaves h
    refine ⟨hreports, fun y hy hs => ?_, fun hall => ?_⟩
    · cases hy
      exact (hsignal hs).2
    · have hd := checkReady_sound hlast fun e he => hall e (List.mem_append_left _ he)
      exact hsound hd fun e he => hall e (List.mem_append_right _ he)

/-! ### Scaling -/

omit [TimeScale τ] in
/-- The report of a deployment that is not ready goes to the log. -/
theorem reportNotReady_leaves {report : NotReady} {evs : List (Event τ)} {r : Except Failure Unit}
    (h : (reportNotReady report).Leaves evs r) : (∀ e ∈ evs, e.Reports) ∧ r = .ok () := by
  obtain ⟨rest, h₁, rfl⟩ := Action.leaves_log_bind.mp h
  suffices hrest : (∀ e ∈ rest, e.Reports) ∧ r = .ok () from
    ⟨List.forall_mem_cons.mpr ⟨trivial, hrest.1⟩, hrest.2⟩
  -- One line for each pending pod; the headline is no part of the induction.
  clear h
  revert h₁
  generalize (report.diagnostic.map Diagnostic.pending).getD [] = entries
  intro h₁
  induction entries generalizing rest with
  | nil =>
    obtain ⟨rfl, rfl⟩ := Action.leaves_pure.mp h₁
    exact ⟨fun e he => absurd he List.not_mem_nil, rfl⟩
  | cons entry entries ih =>
    rw [List.forIn_cons, bind_assoc] at h₁
    obtain ⟨later, h₂, rfl⟩ := Action.leaves_log_bind.mp h₁
    obtain ⟨hlater, rfl⟩ := ih later h₂
    exact ⟨List.forall_mem_cons.mpr ⟨trivial, hlater⟩, rfl⟩

/-- Reports a failure, if there is something to report, and fails with it. -/
def reported (x : Failure) : Action τ Unit := do
  if let .notReady report := x then reportNotReady report
  throw x

omit [TimeScale τ] in
theorem handsOn_reported (x : Failure) : Action.HandsOn x (reported x : Action τ Unit) := by
  intro evs r h
  cases x with
  | notReady report =>
    rcases Action.leaves_bind.mp h with ⟨y, hy, -⟩ | ⟨_, first, rest, hv, h₁, rfl⟩
    · cases (reportNotReady_leaves hy).2
    · obtain ⟨rfl, rfl⟩ := Action.leaves_throw.mp h₁
      rw [List.append_nil]
      exact ⟨(reportNotReady_leaves hv).1, rfl⟩
  | _ => exact Action.handsOn_throw _ evs r h

theorem heeds_awaitReported (pace : Pace τ) (ns name : String) (timeout : τ) :
    (awaitReported pace ns name timeout).Heeds := by
  refine Action.heeds_attempt_bind (heeds_awaitReady pace ns name timeout)
    (fun x _ => handsOn_reported x) fun e he => ?_
  cases e with
  | ok _ => exact Action.heeds_pure _
  | error x => exact (handsOn_reported x).heeds (he x rfl)

theorem heeds_scaleTo (pace : Pace τ) (timeout : τ) (ns name : String) (replicas : Int) :
    (scaleTo pace timeout ns name replicas).Heeds := by
  refine Action.heeds_bind (Action.calm_apiOrFail _).heeds fun d => ?_
  refine Action.heeds_bind (Action.calm_ofExcept d.plain_readyCount).heeds fun ready => ?_
  split
  · exact Action.heeds_bind (Action.calm_log _ _).heeds fun _ => Action.heeds_pure _
  · refine Action.heeds_bind (Action.calm_log _ _).heeds fun _ => ?_
    refine Action.heeds_bind (Action.calm_apiOrFail _).heeds fun _ => ?_
    exact Action.heeds_bind (heeds_awaitReported _ _ _ _) fun _ => Action.heeds_pure _

theorem heeds_reconcile (pace : Pace τ) (timeout : τ) (ns : String) (servers clients : Int) :
    (reconcile pace timeout ns servers clients).Heeds := by
  refine Action.heeds_bind (heeds_scaleTo _ _ _ _ _) fun _ => ?_
  exact Action.heeds_bind (heeds_scaleTo _ _ _ _ _) fun _ => Action.heeds_pure _

/-! ### Tuning -/

namespace Tuning

/-- A signal stays what it is, and nothing else becomes one. -/
theorem failureOf_signal {profile : String} {x : Failure} (h : x.isSignal = true) :
    failureOf profile x = x := by
  cases x with
  | notReady report =>
    have hcancelled : report.cancelled = true := h
    simp [failureOf, hcancelled]
  | comparison => rfl
  | wait fault => rfl
  | _ => cases h

theorem failureOf_plain {profile : String} {x : Failure} (h : x.isSignal = false) :
    (failureOf profile x).isSignal = false := by
  cases x with
  | notReady report =>
    have hcancelled : report.cancelled = false := h
    simp [failureOf, hcancelled, Failure.isSignal, Failure.isCancelled]
  | rejected status reason => rfl
  | _ => exact h

/-- **Tuning heeds signals**: a cancelled wait for the routers is no failure to tune. -/
theorem heeds_apply (pace : Pace τ) (timeout : τ) (profile : String) :
    (apply pace timeout profile).Heeds := by
  refine Action.heeds_bind (Action.calm_ofExcept (Profile.plain_read profile)).heeds fun options => ?_
  refine Action.heeds_bind (Action.calm_log _ _).heeds fun _ => ?_
  refine Action.heeds_attempt_bind (Action.heeds_bind (Action.calm_apiOrFail _).heeds fun _ =>
    heeds_awaitReady _ _ _ _) (fun x hx => ?_) fun e he => ?_
  · show Action.HandsOn x (throw (failureOf profile x))
    rw [failureOf_signal hx]
    exact Action.handsOn_throw x
  · cases e with
    | ok _ => exact Action.heeds_pure _
    | error x => exact Action.heeds_throw (failureOf_plain (he x rfl))

end Tuning

/-! ### Removing -/

/-- Waiting for a condition whose looks are calm. -/
theorem heeds_waitUntil {pace : Pace τ} {timeout : τ} {condition : Action τ Bool}
    (h : condition.Calm) : (waitUntil pace timeout condition).Heeds := by
  refine Action.heeds_clock_bind fun now => ?_
  have hlook : Action.Calm (do return ((), ← condition) : Action τ (Unit × Bool)) :=
    Action.calm_bind h fun _ => Action.calm_pure _
  refine heeds_waited_bind (do return ((), ← condition)) (fun evs r hl => watchLoop_waited hlook hl)
    (fun _ fault hfault => ?_) fun _ last evs r _ hl => ?_
  · cases fault with
    | none => exact Action.heeds_pure _
    | some fault => exact Action.heeds_throw (hfault fault rfl)
  · obtain ⟨rfl, rfl⟩ := Action.leaves_throw.mp hl
    refine ⟨fun e he => absurd he List.not_mem_nil, fun x hx _ => ?_, fun _ => ⟨_, rfl, rfl⟩⟩
    cases hx
    rfl

omit [TimeScale τ] in
theorem calm_namespaceGone (ns : String) : (namespaceGone ns : Action τ Bool).Calm := by
  refine Action.calm_ask_bind (fun _ => rfl) fun reply => ?_
  cases reply with
  | ok _ => exact Action.calm_pure _
  | error fault =>
    dsimp only
    split
    · exact Action.calm_pure _
    · exact Action.calm_throw (Action.failure_plain fault)

omit [TimeScale τ] in
theorem calm_deleteAll (objects : List ObjectRef) : (deleteAll objects : Action τ Unit).Calm := by
  induction objects with
  | nil => exact Action.calm_pure _
  | cons object rest ih => exact Action.calm_bind (Action.calm_apiOrFail _) fun _ => ih

/-- **Removing heeds signals**: the binding stays when the wait for the namespace is cancelled. -/
theorem heeds_removeAssets (pace : Pace τ) (timeout : τ) (existed : Bool) (ns : String) :
    (removeAssets pace timeout existed ns).Heeds := by
  refine Action.heeds_bind (Action.calm_log _ _).heeds fun _ => ?_
  cases existed with
  | true =>
    exact (Action.calm_bind (calm_deleteAll _) fun _ => Action.calm_apiOrFail _).heeds
  | false =>
    refine Action.heeds_bind (Action.heeds_bind (Action.calm_apiOrFail _).heeds fun _ => ?_)
      fun _ => (Action.calm_apiOrFail _).heeds
    exact Action.heeds_bind (Action.calm_log _ _).heeds fun _ =>
      heeds_waitUntil (calm_namespaceGone ns)

end IngressBench
