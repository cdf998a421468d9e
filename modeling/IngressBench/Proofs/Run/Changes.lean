import IngressBench.Proofs.Program.Asks
import IngressBench.Proofs.Program.Keeps
import IngressBench.Proofs.Run.Course

/-!
What the stages of a run change in its state. Connecting may make the session, a completed
deployment records whether the namespace was there, a removal is recorded when it begins; test cases
change no more than the tuning profile, the verdict and the sink (`runCases_along`).
-/
namespace IngressBench.Plan

variable {τ : Type} [TimeScale τ] {p : Plan τ} {s s' : RunState} {evs : List (Event τ)}

/-! ### Opening and removing -/

omit [TimeScale τ] in
/-- A run keeps the session that it has. -/
theorem session_leaves {r : Except Failure Session} (h : p.session.Leaves s evs r s') :
    ∃ session, s' = { s with session } ∧ (s.session.isSome = true → session = s.session) ∧
      ∀ v, r = .ok v → session.isSome = true := by
  have h₁ := Keeping.leaves_get_bind.mp h
  cases hs : s.session with
  | some session =>
    rw [hs] at h₁
    obtain ⟨-, -, rfl⟩ := Keeping.leaves_pure.mp h₁
    exact ⟨some session, by rw [← hs], fun _ => rfl, fun _ _ => rfl⟩
  | none =>
    rw [hs] at h₁
    rcases Keeping.leaves_lift_bind.mp h₁ with ⟨x, -, rfl, rfl⟩ | ⟨session, _, _, -, h₂, -⟩
    · exact ⟨none, by rw [← hs], fun _ => rfl, fun _ h => nomatch h⟩
    · have h₃ := Keeping.leaves_modify_bind.mp h₂
      obtain ⟨-, -, rfl⟩ := Keeping.leaves_pure.mp h₃
      exact ⟨some session, rfl, fun h => absurd h Bool.false_ne_true, fun _ _ => rfl⟩

omit [TimeScale τ] in
/-- Connecting changes the session and the phase. -/
theorem connect_leaves {r : Except Failure (ClusterMetadata × MetricsServer)}
    (h : p.connect.Leaves s evs r s') :
    ∃ session, (s.session.isSome = true → session = s.session) ∧
      ((∃ x, r = .error x) ∧ s' = { s with session } ∨
        (∃ v, r = .ok v) ∧ session.isSome = true ∧
          s' = { s with session, phase := .connected }) := by
  rcases Keeping.leaves_bind.mp h with ⟨x, hx, rfl⟩ | ⟨_, s₁, _, _, hsession, h₁, -⟩
  · obtain ⟨session, rfl, hkept, -⟩ := session_leaves hx
    exact ⟨session, hkept, .inl ⟨⟨x, rfl⟩, rfl⟩⟩
  obtain ⟨session, rfl, hkept, hsome⟩ := session_leaves hsession
  refine ⟨session, hkept, ?_⟩
  rcases Keeping.leaves_lift_bind.mp h₁ with ⟨x, -, rfl, rfl⟩ | ⟨_, _, _, -, h₂, -⟩
  · exact .inl ⟨⟨x, rfl⟩, rfl⟩
  rcases Keeping.leaves_lift_bind.mp h₂ with ⟨x, -, rfl, rfl⟩ | ⟨_, _, _, -, h₃, -⟩
  · exact .inl ⟨⟨x, rfl⟩, rfl⟩
  rcases Keeping.leaves_lift_bind.mp h₃ with ⟨x, -, rfl, rfl⟩ | ⟨_, _, _, -, h₄, -⟩
  · exact .inl ⟨⟨x, rfl⟩, rfl⟩
  have h₅ := Keeping.leaves_modify_bind.mp h₄
  obtain ⟨-, rfl, rfl⟩ := Keeping.leaves_pure.mp h₅
  exact .inr ⟨⟨_, rfl⟩, hsome _ rfl, rfl⟩

/-- Removing objects changes only that they are removed. -/
theorem teardown_leaves {r : Except Failure Unit} (h : p.teardown.Leaves s evs r s') :
    s' = { s with torndown := true } ∧
      (s.torndown = true ∧ evs = [] ∨ s.torndown = false ∧
        ((s.session = none ∧ ∀ e ∈ evs, e.Asks fun _ => False) ∨ s.session.isSome = true ∧
          (removeAssets p.limits.pace p.limits.cleanup s.existed p.settings.ns).Leaves evs r)) := by
  have h₁ := Keeping.leaves_get_bind.mp h
  cases htorn : s.torndown with
  | true =>
    rw [htorn, if_pos rfl] at h₁
    obtain ⟨rfl, -, rfl⟩ := Keeping.leaves_pure.mp h₁
    exact ⟨by rw [← htorn], .inl ⟨rfl, rfl⟩⟩
  | false =>
    rw [htorn, if_neg Bool.false_ne_true] at h₁
    have h₂ := Keeping.leaves_modify_bind.mp h₁
    cases hsession : s.session with
    | some session =>
      rw [hsession] at h₂
      obtain ⟨hremoving, rfl⟩ := Keeping.leaves_lift.mp h₂
      exact ⟨by rw [← hsession], .inr ⟨rfl, .inr ⟨rfl, hremoving⟩⟩⟩
    | none =>
      rw [hsession] at h₂
      obtain ⟨_, h₃, rfl⟩ := Keeping.leaves_log_bind.mp h₂
      obtain ⟨rfl, -, rfl⟩ := Keeping.leaves_throw.mp h₃
      refine ⟨by rw [← hsession], .inr ⟨rfl, .inl ⟨rfl, fun e he => ?_⟩⟩⟩
      obtain rfl := List.mem_singleton.mp he
      trivial

/-- A run that has a session and has not removed its objects yet removes them. -/
theorem teardown_removes {r : Except Failure Unit} (h : p.teardown.Leaves s evs r s')
    (htorn : s.torndown = false) (hsession : s.session.isSome = true) :
    (removeAssets p.limits.pace p.limits.cleanup s.existed p.settings.ns).Leaves evs r := by
  obtain ⟨-, ⟨htorn', -⟩ | ⟨-, ⟨hnone, -⟩ | ⟨-, hremoving⟩⟩⟩ := teardown_leaves h
  · rw [htorn] at htorn'
    cases htorn'
  · rw [hnone] at hsession
    cases hsession
  · exact hremoving

omit [TimeScale τ] in
/-- A deployment that fails changes nothing in the state of the run. -/
theorem deployAssets_leaves {r : Except Failure Unit} (h : p.deployAssets.Leaves s evs r s') :
    (∃ x, r = .error x ∧ (deploy p.settings.ns).Leaves evs (.error x) ∧ s' = s) ∨
      ∃ existed, r = .ok () ∧ (deploy p.settings.ns).Leaves evs (.ok existed) ∧
        s' = { s with existed, phase := .deployed } := by
  rcases Keeping.leaves_lift_bind.mp h with ⟨x, hx, rfl, rfl⟩ | ⟨existed, _, _, hdeploy, h₁, rfl⟩
  · exact .inl ⟨x, rfl, hx, rfl⟩
  · have h₂ := Keeping.leaves_modify_bind.mp h₁
    obtain ⟨rfl, rfl, rfl⟩ := Keeping.leaves_modify.mp h₂
    rw [List.append_nil]
    exact .inr ⟨existed, rfl, hdeploy, rfl⟩

omit [TimeScale τ] in
/-- Connecting and deploying change the session, what is known about the namespace, and the phase.
-/
theorem opening_leaves {connecting deploying : List (Event τ)}
    {learnt : ClusterMetadata × MetricsServer} {s₁ s₂ : RunState}
    (hconnecting : p.connect.Leaves s connecting (.ok learnt) s₁)
    (hdeploying : p.deployAssets.Leaves s₁ deploying (.ok ()) s₂) :
    ∃ session existed, s₂ = { s with session, existed, phase := .deployed } := by
  obtain ⟨session, -, ⟨⟨x, hx⟩, -⟩ | ⟨-, -, rfl⟩⟩ := connect_leaves hconnecting
  · cases hx
  obtain ⟨x, hx, -⟩ | ⟨existed, -, -, rfl⟩ := deployAssets_leaves hdeploying
  · cases hx
  · exact ⟨session, existed, rfl⟩

/-! ### Test cases -/

/-- States that agree but for the tuning profile and the verdict. -/
def Near (s s' : RunState) : Prop :=
  ∃ tuning passed, s' = { s with tuning, passed }

theorem Near.refl (s : RunState) : Near s s :=
  ⟨_, _, rfl⟩

theorem Near.trans {s₁ s₂ s₃ : RunState} (h : Near s₁ s₂) (h' : Near s₂ s₃) : Near s₁ s₃ := by
  obtain ⟨_, _, rfl⟩ := h
  obtain ⟨tuning, passed, rfl⟩ := h'
  exact ⟨tuning, passed, rfl⟩

theorem Near.sink_eq (h : Near s s') : s'.sink = s.sink := by
  obtain ⟨_, _, rfl⟩ := h
  rfl

omit [TimeScale τ] in
theorem keeps_tune (c : TestCase) : (p.tune c).Keeps Near := by
  refine Keeping.keeps_bind .trans (Keeping.keeps_get .refl) fun s => ?_
  split
  · refine Keeping.keeps_bind .trans (Keeping.keeps_lift .refl _) fun _ => ?_
    exact Keeping.keeps_modify fun s => ⟨_, _, rfl⟩
  · exact Keeping.keeps_pure .refl _

omit [TimeScale τ] in
theorem keeps_compare (c : TestCase) (results : List Result) :
    (p.compare c results).Keeps Near := by
  unfold compare
  split
  · refine Keeping.keeps_bind .trans (Keeping.keeps_lift .refl _) fun verdict => ?_
    split
    · refine Keeping.keeps_bind .trans (Keeping.keeps_lift .refl _) fun _ => ?_
      exact Keeping.keeps_modify fun s => ⟨_, _, rfl⟩
    · exact Keeping.keeps_pure .refl _
  · exact Keeping.keeps_pure .refl _

/-- States that agree but for what test cases change. -/
def Along (s s' : RunState) : Prop :=
  ∃ tuning passed sink, s' = { s with tuning, passed, sink }

theorem Along.trans {s₁ s₂ s₃ : RunState} (h : Along s₁ s₂) (h' : Along s₂ s₃) : Along s₁ s₃ := by
  obtain ⟨_, _, _, rfl⟩ := h
  obtain ⟨tuning, passed, sink, rfl⟩ := h'
  exact ⟨tuning, passed, sink, rfl⟩

theorem Near.along (h : Near s s') : Along s s' := by
  obtain ⟨tuning, passed, rfl⟩ := h
  exact ⟨tuning, passed, s.sink, rfl⟩

theorem Along.phase_eq (h : Along s s') : s'.phase = s.phase := by
  obtain ⟨_, _, _, rfl⟩ := h
  rfl

omit [TimeScale τ] in
/-- A step of the sink changes the sink only. -/
theorem keeps_withSink (step : Keeping Sink τ Unit) : (withSink step).Keeps Along := by
  intro s evs r s' h
  rcases withSink_leaves h with ⟨-, -, -, rfl⟩ | ⟨sink, sink', -, -, rfl⟩
  · exact (Near.refl _).along
  · exact ⟨_, _, some sink', rfl⟩

theorem Prepared.near {c : TestCase} (h : Prepared p c s evs s') : Near s s' := by
  obtain ⟨-, htuning⟩ := h
  exact keeps_tune c _ _ _ _ htuning

theorem Attempt.along {metadata : ClusterMetadata} {metrics : MetricsServer} {c : TestCase}
    {r : Except Failure Unit} (h : Attempt p metadata metrics c s evs r s') : Along s s' := by
  cases h with
  | unscaled _ => exact (Near.refl _).along
  | untuned _ htuning => exact (keeps_tune c _ _ _ _ htuning).along
  | unmeasured hprelude _ => exact hprelude.near.along
  | warm hprelude _ _ => exact hprelude.near.along
  | uncompared hprelude _ _ hjudging =>
    exact (hprelude.near.trans (keeps_compare c _ _ _ _ _ hjudging)).along
  | handed hprelude _ _ hjudging hstoring =>
    have hjudged := hprelude.near.trans (keeps_compare c _ _ _ _ _ hjudging)
    exact hjudged.along.trans (keeps_withSink _ _ _ _ _ hstoring)

theorem Rounds.along {metadata : ClusterMetadata} {metrics : MetricsServer} {done : List TestCase}
    (h : Rounds p metadata metrics done s evs s') : Along s s' := by
  induction h with
  | none => exact (Near.refl _).along
  | more first _ ih => exact first.along.trans ih

/-- Test cases change the tuning profile, the verdict and the sink only. -/
theorem runCases_along {metadata : ClusterMetadata} {metrics : MetricsServer} {number : Nat}
    {cases : List TestCase} (h : (p.runCases metadata metrics number cases).Leaves s evs r s') :
    Along s s' := by
  rcases runCases_leaves h with ⟨hall, -⟩ | ⟨_, _, _, _, _, _, _, _, _, -, hdone, hbroken, -⟩
  · exact hall.along
  · exact hdone.along.trans hbroken.along

theorem Closing.isDeployed {r : Except Failure Unit} (h : Closing p s evs r s')
    (hs : s.phase.isDeployed = true) : s'.phase.isDeployed = true := by
  have hstored : ∀ {storing : List (Event τ)} {r : Except Failure Unit} {s₁ : RunState},
      (withSink Sink.close).Leaves s storing r s₁ → s₁.phase.isDeployed = true := fun h => by
    rw [(keeps_withSink _ _ _ _ _ h).phase_eq]
    exact hs
  cases h with
  | unstored hstoring => exact hstored hstoring
  | kept _ hstoring => rfl
  | unremoved _ hstoring hremoving =>
    rw [(teardown_leaves hremoving).1]
    rfl
  | removed _ _ _ => rfl

end IngressBench.Plan
