import IngressBench.Proofs.Run.Team
import IngressBench.Proofs.Signals.Calm
import IngressBench.Proofs.Signals.Waiting

/-!
The helpers of a run heed signals, those of its own (`Team.own_usual`) and those of the surroundings.
A helper of the surroundings is one question, and its failure is handed on as it is.
-/
namespace IngressBench

variable {τ : Type}

/-! ### Connections -/

namespace Session

theorem heeds_keysOf (access : Access) : (keysOf access : Action τ Keys).Heeds := by
  refine Action.heeds_ask_bind (fun v x hv hx => ?_) fun v hv => ?_
  · cases v with
    | ok keys => cases hv
    | error failure =>
      obtain rfl := Option.some.inj hv
      cases failure with
      | other name text => cases hx
      | _ => exact Action.handsOn_throw _
  · cases v with
    | ok keys => exact Action.heeds_pure _
    | error failure =>
      have hplain := hv failure rfl
      cases failure with
      | other name text => exact Action.heeds_throw rfl
      | _ => exact Action.heeds_throw hplain

theorem calm_configFile (env : Environment) (settings : Settings) :
    (configFile env settings : Action τ (Option String)).Calm := by
  unfold configFile
  split
  · exact Action.calm_pure _
  · split
    · exact Action.calm_pure _
    · exact Action.calm_ask_bind (fun _ => rfl) fun found => Action.calm_pure _

theorem heeds_connect (env : Environment) (settings : Settings) :
    (connect env settings : Action τ Session).Heeds := by
  refine Action.heeds_bind (calm_configFile env settings).heeds fun path => ?_
  cases path with
  | some path =>
    refine Action.heeds_bind (heeds_keysOf _) fun _ => ?_
    exact Action.heeds_bind (Action.calm_log _ _).heeds fun _ => Action.heeds_pure _
  | none =>
    refine Action.heeds_bind (heeds_keysOf _) fun _ => ?_
    exact Action.heeds_bind (Action.calm_log _ _).heeds fun _ => Action.heeds_pure _

end Session

/-! ### The surroundings -/

namespace Outside

/-- What the surroundings fail with is handed on. -/
theorem heeds_answered {α : Type} {q : Question} {told : q.Reply → Except Failure α}
    (hread : ∀ v x, q.failed? v = some x ↔ told v = .error x) :
    (answered q told : Action τ α).Heeds :=
  Action.heeds_answer told hread (fun _ => rfl) fun _ => Action.heeds_pure _

theorem heeds_connect (ns : String) : (connect ns : Action τ Session).Heeds := by
  rw [connect_eq]
  refine heeds_answered fun v x => ?_
  cases v <;> simp [Question.failed?, Except.map]

theorem heeds_drive (c : TestCase) (metadata : ClusterMetadata) (server : Option MetricsServer)
    (podMetrics : Bool) : (drive c metadata server podMetrics : Action τ (List Result)).Heeds := by
  rw [drive_eq]
  refine heeds_answered fun v x => ?_
  cases v <;> simp [Question.failed?]

theorem heeds_tune (profile : String) : (tune profile : Action τ Unit).Heeds := by
  rw [tune_eq]
  refine heeds_answered fun v x => ?_
  cases v <;> simp [Question.failed?]

theorem heeds_compare (c : TestCase) (results : List Result) :
    (compare c results : Action τ Bool).Heeds := by
  rw [compare_eq]
  refine heeds_answered fun v x => ?_
  cases v <;> simp [Question.failed?]

end Outside

/-! ### Teams -/

variable [TimeScale τ]

/-- A team of helpers of the run's own and of the surroundings; whatever these answer. -/
structure Team.Usual (team : Team τ) : Prop where
  connect : (∃ ns, team.connect = Outside.connect ns) ∨
    ∃ env settings, team.connect = Session.connect env settings
  drive : team.drive = Outside.drive ∨ ∃ ns, team.drive = Load.run ns
  tune : team.tune = Outside.tune ∨ ∃ pace timeout, team.tune = Tuning.apply pace timeout
  compare : team.compare = none ∨ team.compare = some Outside.compare

theorem Team.own_usual (env : Environment) (settings : Settings) (limits : Limits τ) :
    (Team.own env settings limits).Usual :=
  ⟨.inr ⟨env, settings, rfl⟩, .inr ⟨_, rfl⟩, .inr ⟨_, _, rfl⟩, .inl rfl⟩

namespace Team.Usual

variable {team : Team τ}

theorem heeds_connect (h : team.Usual) : team.connect.Heeds := by
  rcases h.connect with ⟨ns, hc⟩ | ⟨env, settings, hc⟩
  · rw [hc]
    exact Outside.heeds_connect ns
  · rw [hc]
    exact Session.heeds_connect env settings

theorem heeds_drive (h : team.Usual) (c : TestCase) (metadata : ClusterMetadata)
    (server : Option MetricsServer) (podMetrics : Bool) :
    (team.drive c metadata server podMetrics).Heeds := by
  rcases h.drive with hd | ⟨ns, hd⟩
  · rw [hd]
    exact Outside.heeds_drive c metadata server podMetrics
  · rw [hd]
    exact (Load.calm_run ns c metadata server podMetrics).heeds

theorem heeds_tune (h : team.Usual) (profile : String) : (team.tune profile).Heeds := by
  rcases h.tune with ht | ⟨pace, timeout, ht⟩
  · rw [ht]
    exact Outside.heeds_tune profile
  · rw [ht]
    exact Tuning.heeds_apply pace timeout profile

theorem heeds_compare (h : team.Usual) {comparator : Comparator τ}
    (hc : team.compare = some comparator) (c : TestCase) (results : List Result) :
    (comparator c results).Heeds := by
  rcases h.compare with hnone | hsome
  · rw [hnone] at hc
    cases hc
  · rw [hsome] at hc
    cases hc
    exact Outside.heeds_compare c results

end Team.Usual
end IngressBench
