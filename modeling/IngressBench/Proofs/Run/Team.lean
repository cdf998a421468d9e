import IngressBench.Proofs.Cluster.Discovery
import IngressBench.Proofs.Readiness.Await
import IngressBench.Run.Team

/-!
What the helpers of a run ask for. In an observed team whoever measures and whoever compares is in
the surroundings, so that each of their calls is one question with one reply; the connection and the
tuning may be the run's own.
-/
namespace IngressBench

variable {τ : Type} [TimeScale τ]

/-- A team whose measuring and comparing are questions to the surroundings, with any replies. -/
structure Team.Observed (team : Team τ) : Prop where
  connect : (∃ ns, team.connect = Outside.connect ns) ∨
    ∃ env settings, team.connect = Session.connect env settings
  drive : team.drive = Outside.drive
  tune : team.tune = Outside.tune ∨ ∃ pace timeout, team.tune = Tuning.apply pace timeout
  compare : team.compare = none ∨ team.compare = some Outside.compare

/-! ### Tuning -/

/-- A question that is asked to tune the ingress controller. -/
def Question.Tunes (q : Question) : Prop :=
  (∃ profile, q = .tune profile) ∨ (∃ options, q = .api (.tune options)) ∨
    q.LooksAt routerNamespace Tuning.routerDeployment

/-- A question that a run asks when it tunes by itself. -/
def Question.Applies (q : Question) : Prop :=
  (∃ options, q = .api (.tune options)) ∨ q.LooksAt routerNamespace Tuning.routerDeployment

theorem Question.Applies.tunes {q : Question} (h : q.Applies) : q.Tunes :=
  .inr h

namespace Tuning

theorem asks_applyOptions (pace : Pace τ) (timeout : τ) (options : List (String × Document)) :
    (applyOptions pace timeout options).Asks Question.Applies := by
  refine Action.asks_bind (Action.asks_apiOrFail (.inl ⟨options, rfl⟩)) fun _ => ?_
  exact (asks_awaitReady pace _ _ timeout).mono fun _ => .inr

theorem asks_apply (pace : Pace τ) (timeout : τ) (profile : String) :
    (apply pace timeout profile).Asks Question.Applies := by
  refine Action.asks_bind (Action.asks_ofExcept _) fun options => ?_
  refine Action.asks_bind (Action.asks_log _ _) fun _ => ?_
  refine Action.asks_bind (Action.asks_attempt (asks_applyOptions pace timeout options)) fun e => ?_
  cases e with
  | ok _ => exact Action.asks_pure _
  | error failure => exact Action.asks_throw _

/-- **A profile that is applied well leaves the routers ready.** -/
theorem guards_apply (pace : Pace τ) (timeout : τ) (profile : String) :
    (apply pace timeout profile).Guards .free Standing.free.Well := by
  refine Action.guards_ofExcept_bind (fun _ _ => Standing.free.well_error _ _) fun options _ => ?_
  refine Action.guards_log_bind (Action.guards_attempt_bind (P := Standing.free.Well) ?_ ?_)
  · refine Action.guards_apiOrFail_bind (fun _ => rfl) (fun _ => Standing.free.well_error _ _) ?_
    exact fun _ => guards_awaitReady pace routerNamespace routerDeployment timeout
  · intro e t ht
    cases e with
    | ok _ => exact Action.guards_pure fun _ _ => ht () rfl
    | error failure => exact Action.guards_throw (Standing.free.well_error _ _)

end Tuning

/-! ### Helpers of the surroundings -/

namespace Outside

section
omit [TimeScale τ]

/-- Asks the surroundings, and ends with what their reply tells. -/
def answered {α : Type} (q : Question) (told : q.Reply → Except Failure α) : Action τ α := do
  Action.ofExcept (told (← Action.ask q))

variable {α : Type} {P : Question → Prop} {q : Question} {told : q.Reply → Except Failure α}

theorem only_answered {E : Event τ → Prop} (hE : ∀ reply time, E (.asked q reply time)) :
    (answered q told).Only E :=
  Action.only_bind (Action.only_ask hE) fun _ => Action.only_ofExcept _

theorem asks_answered (hP : P q) : (answered q told : Action τ α).Asks P :=
  only_answered fun _ _ => hP

theorem answered_leaves {evs : List (Event τ)} {r : Except Failure α}
    (h : (answered q told).Leaves evs r) :
    ∃ reply time, r = told reply ∧ evs = [.asked q reply time] := by
  obtain ⟨reply, time, rest, hr, rfl⟩ := Action.leaves_ask_bind.mp h
  obtain ⟨rfl, rfl⟩ := Action.leaves_ofExcept.mp hr
  exact ⟨reply, time, rfl, rfl⟩

theorem guards_answered
    (hwell : ∀ reply, Standing.free.Well (told reply) (Standing.free.replied q reply)) :
    (answered q told : Action τ α).Guards .free Standing.free.Well :=
  Action.guards_ask_bind (fun _ => rfl) fun reply => Action.guards_ofExcept (hwell reply)

/-! #### Each helper is one question -/

theorem connect_eq (ns : String) :
    (connect ns : Action τ Session) = answered (.connect ns) (Except.map fun keys => { keys }) :=
  congrArg (Action.ask (.connect ns) >>= ·) (funext fun reply => by cases reply <;> rfl)

theorem drive_eq (c : TestCase) (metadata : ClusterMetadata) (server : Option MetricsServer)
    (podMetrics : Bool) : (drive c metadata server podMetrics : Action τ (List Result)) =
      answered (.drive c metadata podMetrics) fun results => results :=
  congrArg (Action.ask (.drive c metadata podMetrics) >>= ·)
    (funext fun reply => by cases reply <;> rfl)

theorem tune_eq (profile : String) :
    (tune profile : Action τ Unit) = answered (.tune profile) fun reply => reply :=
  congrArg (Action.ask (.tune profile) >>= ·) (funext fun reply => by cases reply <;> rfl)

theorem compare_eq (c : TestCase) (results : List Result) :
    (compare c results : Action τ Bool) = answered (.compare c results) fun verdict => verdict :=
  congrArg (Action.ask (.compare c results) >>= ·) (funext fun reply => by cases reply <;> rfl)

variable {c : TestCase} {metadata : ClusterMetadata} {server : Option MetricsServer}
  {podMetrics : Bool} {results : List Result} {evs : List (Event τ)}

theorem asks_connect {ns : String} (hP : P (.connect ns)) :
    (connect ns : Action τ Session).Asks P := by
  rw [connect_eq]
  exact asks_answered hP

theorem asks_tune {profile : String} (hP : P (.tune profile)) :
    (tune profile : Action τ Unit).Asks P := by
  rw [tune_eq]
  exact asks_answered hP

theorem asks_drive (hP : P (.drive c metadata podMetrics)) :
    (drive c metadata server podMetrics : Action τ (List Result)).Asks P := by
  rw [drive_eq]
  exact asks_answered hP

theorem asks_compare (hP : P (.compare c results)) :
    (compare c results : Action τ Bool).Asks P := by
  rw [compare_eq]
  exact asks_answered hP

/-- A measurement of the surroundings is one question, and its reply is what it ends with. -/
theorem drive_leaves {r : Except Failure (List Result)}
    (h : (drive c metadata server podMetrics).Leaves evs r) :
    ∃ time, evs = [.asked (.drive c metadata podMetrics) r time] := by
  rw [drive_eq] at h
  obtain ⟨_, time, rfl, rfl⟩ := answered_leaves h
  exact ⟨time, rfl⟩

/-- A tuning of the surroundings is one question, and its reply is what it ends with. -/
theorem tune_leaves {profile : String} {r : Except Failure Unit}
    (h : (tune profile).Leaves evs r) : ∃ time, evs = [.asked (.tune profile) r time] := by
  rw [tune_eq] at h
  obtain ⟨_, time, rfl, rfl⟩ := answered_leaves h
  exact ⟨time, rfl⟩

/-- A comparison of the surroundings is one question, and its reply is what it ends with. -/
theorem compare_leaves {r : Except Failure Bool} (h : (compare c results).Leaves evs r) :
    ∃ time, evs = [.asked (.compare c results) r time] := by
  rw [compare_eq] at h
  obtain ⟨_, time, rfl, rfl⟩ := answered_leaves h
  exact ⟨time, rfl⟩

theorem guards_connect (ns : String) :
    (connect ns : Action τ Session).Guards .free Standing.free.Well := by
  rw [connect_eq]
  refine guards_answered fun reply v h => ?_
  cases reply with
  | ok keys => rfl
  | error failure => cases h

theorem guards_tune (profile : String) :
    (tune profile : Action τ Unit).Guards .free Standing.free.Well := by
  rw [tune_eq]
  refine guards_answered fun reply v h => ?_
  obtain rfl : reply = .ok v := h
  rfl

theorem guards_drive (c : TestCase) (metadata : ClusterMetadata) (server : Option MetricsServer)
    (podMetrics : Bool) :
    (drive c metadata server podMetrics : Action τ (List Result)).Guards .free
      Standing.free.Well := by
  rw [drive_eq]
  refine guards_answered fun reply v h => ?_
  obtain rfl : reply = .ok v := h
  rfl

theorem guards_compare (c : TestCase) (results : List Result) :
    (compare c results : Action τ Bool).Guards .free Standing.free.Well := by
  rw [compare_eq]
  refine guards_answered fun reply v h => ?_
  obtain rfl : reply = .ok v := h
  rfl

end

end Outside

/-! ### Teams -/

namespace Team

variable {P : Question → Prop} {team : Team τ}

/-- A team whose helpers ask only questions of the given kind. -/
structure AsksOnly (P : Question → Prop) (team : Team τ) : Prop where
  connect : team.connect.Asks P
  drive : ∀ c metadata metrics podMetrics, (team.drive c metadata metrics podMetrics).Asks P
  tune : ∀ profile, (team.tune profile).Asks P
  compare : ∀ comparator, team.compare = some comparator →
    ∀ c results, (comparator c results).Asks P

omit [TimeScale τ] in
/-- Every connection learns about the cluster only. -/
theorem asks_connection (h : (∃ ns, team.connect = Outside.connect ns) ∨
    ∃ env settings, team.connect = Session.connect env settings) :
    team.connect.Asks Question.Learns := by
  rcases h with ⟨ns, hc⟩ | ⟨env, settings, hc⟩
  · rw [hc]
    exact Outside.asks_connect trivial
  · rw [hc]
    exact Session.asks_connect env settings

omit [TimeScale τ] in
theorem asks_comparator (h : team.compare = none ∨ team.compare = some Outside.compare)
    (hP : ∀ c results, P (.compare c results)) (comparator : Comparator τ)
    (hc : team.compare = some comparator) (c : TestCase) (results : List Result) :
    (comparator c results).Asks P := by
  rcases h with hnone | hsome
  · rw [hnone] at hc
    cases hc
  · rw [hsome] at hc
    cases hc
    exact Outside.asks_compare (hP c results)

end Team

/-! ### Observed teams -/

namespace Team.Observed

variable {team : Team τ}

/-- A measurement of an observed team is one question. -/
theorem drive_leaves (h : team.Observed) {c : TestCase} {metadata : ClusterMetadata}
    {server : Option MetricsServer} {podMetrics : Bool} {evs : List (Event τ)}
    {r : Except Failure (List Result)}
    (hl : (team.drive c metadata server podMetrics).Leaves evs r) :
    ∃ time, evs = [.asked (.drive c metadata podMetrics) r time] := by
  rw [h.drive] at hl
  exact Outside.drive_leaves hl

theorem asks_connect (h : team.Observed) : team.connect.Asks Question.Learns :=
  asks_connection h.connect

theorem guards_connect (h : team.Observed) : team.connect.Guards .free Standing.free.Well := by
  rcases h.connect with ⟨ns, hc⟩ | ⟨env, settings, hc⟩
  · rw [hc]
    exact Outside.guards_connect ns
  · rw [hc]
    exact Session.guards_connect env settings

theorem asks_tune (h : team.Observed) (profile : String) :
    (team.tune profile).Asks Question.Tunes := by
  rcases h.tune with ht | ⟨pace, timeout, ht⟩
  · rw [ht]
    exact Outside.asks_tune (.inl ⟨profile, rfl⟩)
  · rw [ht]
    exact (Tuning.asks_apply pace timeout profile).mono fun _ => Question.Applies.tunes

theorem guards_tune (h : team.Observed) (profile : String) :
    (team.tune profile).Guards .free Standing.free.Well := by
  rcases h.tune with ht | ⟨pace, timeout, ht⟩
  · rw [ht]
    exact Outside.guards_tune profile
  · rw [ht]
    exact Tuning.guards_apply pace timeout profile

end Team.Observed
end IngressBench
