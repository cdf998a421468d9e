import IngressBench.Result

/-!
When measurements make a result. A result of a test case is accepted exactly when its sample is
numbered from one on and no measurement is negative (`Result.ofMetrics_ok`,
`Result.ofMetrics_invalid`); it then holds what it was given.
-/
namespace IngressBench

/-! ### Readings that note issues -/

namespace Record

variable {α β : Type} {P Q : Prop} {V : α → Prop} {W : β → Prop}

/-- Under the condition `P` the reading notes nothing and its value satisfies `V`; otherwise it
notes an issue. -/
def Yields (m : Intake α) (V : α → Prop) (P : Prop) : Prop :=
  ∀ issues, ∃ v found, m.run issues = .ok (v, issues ++ found) ∧ (P → V v ∧ found = []) ∧
    (¬ P → found ≠ [])

theorem yields_pure {v : α} (h : V v) : Yields (pure v : Intake α) V True :=
  fun issues => ⟨v, [], congrArg (fun l => Except.ok (v, l)) (List.append_nil issues).symm,
    fun _ => ⟨h, rfl⟩, fun hno => absurd trivial hno⟩

/-- One reading after another notes the issues of both. -/
theorem Yields.bind {m : Intake α} {f : α → Intake β} (hm : Yields m V P)
    (hf : ∀ v, Yields (f v) (fun b => V v → W b) Q) : Yields (m >>= f) W (P ∧ Q) := by
  intro issues
  obtain ⟨v, found, hrun, hfine, hbad⟩ := hm issues
  obtain ⟨b, found', hrun', hfine', hbad'⟩ := hf v (issues ++ found)
  refine ⟨b, found ++ found', ?_, fun h => ?_, fun h hnone => ?_⟩
  · rw [StateT.run_bind, hrun, ← List.append_assoc]
    exact hrun'
  · obtain ⟨hv, rfl⟩ := hfine h.1
    obtain ⟨hb, rfl⟩ := hfine' h.2
    exact ⟨hb hv, rfl⟩
  · obtain ⟨hfound, hfound'⟩ := List.append_eq_nil_iff.mp hnone
    exact h ⟨Classical.byContradiction fun hp => hbad hp hfound,
      Classical.byContradiction fun hq => hbad' hq hfound'⟩

section

variable {fields : Fields} {name : String} {default : α} {read : Document → Except Cause α}

/-- A field that is given is read as it should be, or an issue. -/
theorem yields_optional {d : Document} {v : α} (hgiven : List.lookup name fields = some d)
    (hfine : P → read d = .ok v) (hbad : ¬ P → ∃ cause, read d = .error cause) :
    Yields (optional fields name default read) (· = v) P := by
  have hfound : given? fields [name] = some (name, d) := by simp only [given?, hgiven]
  by_cases hp : P
  · have hopt : optional fields name default read = pure v := by
      simp only [optional, optionalBy, hfound, hfine hp]
    rw [hopt]
    exact fun issues => ⟨v, [], congrArg (fun l => Except.ok (v, l)) (List.append_nil issues).symm,
      fun _ => ⟨rfl, rfl⟩, fun h => absurd hp h⟩
  · obtain ⟨cause, hcause⟩ := hbad hp
    have hopt : optional fields name default read =
        (note name cause >>= fun _ => pure default) := by
      simp only [optional, optionalBy, hfound, hcause]
    rw [hopt]
    exact fun issues => ⟨default, [Issue.at name cause], rfl, fun h => absurd h hp, fun _ => nofun⟩

theorem yields_absent (habsent : List.lookup name fields = none) :
    Yields (optional fields name default read) (· = default) True := by
  have hopt : optional fields name default read = pure default := by
    unfold optional optionalBy given? given?
    rw [habsent]
  rw [hopt]
  exact yields_pure rfl

theorem yields_required {d : Document} {v : α} (hgiven : List.lookup name fields = some d)
    (hfine : P → read d = .ok v) (hbad : ¬ P → ∃ cause, read d = .error cause) :
    Yields (required fields name default read) (· = v) P := by
  unfold required
  rw [hgiven]
  exact yields_optional hgiven hfine hbad

end

/-- A record counts when there was no issue. -/
theorem Yields.finish {m : Intake α} (h : Yields m V P) (title : String) :
    (P → ∃ v, finish title m = .ok v ∧ V v) ∧
      (¬ P → ∃ issues, finish title m = .error (.invalid title issues)) := by
  obtain ⟨v, found, hrun, hfine, hbad⟩ := h []
  have hfinish : Record.finish title m =
      if found.isEmpty then .ok v else .error (.invalid title found) := by
    unfold Record.finish
    rw [hrun]
    rfl
  rw [hfinish]
  constructor
  · intro hp
    obtain ⟨hv, rfl⟩ := hfine hp
    exact ⟨v, rfl, hv⟩
  · intro hp
    exact ⟨found, if_neg fun hempty => hbad hp (List.isEmpty_iff.mp hempty)⟩

end Record

/-! ### Measurements -/

/-- No measurement is negative, or not a number. -/
structure Measures.Nonnegative (m : Metrics) : Prop where
  requests : 0 ≤ m.requests
  rps : 0 ≤ m.rps
  avgLatency : 0 ≤ m.avgLatency
  maxLatency : 0 ≤ m.maxLatency
  p90Latency : 0 ≤ m.p90Latency
  p95Latency : 0 ≤ m.p95Latency
  p99Latency : 0 ≤ m.p99Latency
  httpErrors : 0 ≤ m.httpErrors
  timeouts : 0 ≤ m.timeouts

namespace Result

open Record

variable {fields : Fields} {name : String}

/-- A whole number is accepted from a bound on. -/
theorem atLeast_int (least i : Int) : (least ≤ i → atLeast least (.int i) = .ok i) ∧
    (¬ least ≤ i → ∃ cause, atLeast least (.int i) = .error cause) := by
  have heq : atLeast least (.int i) = if i < least then .error (.below least) else .ok i := rfl
  rw [heq]
  exact ⟨fun h => if_neg (Int.not_lt.mpr h), fun h => ⟨_, if_pos (Int.not_le.mp h)⟩⟩

theorem yields_count (default : Int) {i : Int} (hgiven : List.lookup name fields = some (.int i)) :
    Yields (optional fields name default (atLeast 0)) (· = i) (0 ≤ i) :=
  yields_optional hgiven (atLeast_int 0 i).1 (atLeast_int 0 i).2

theorem yields_measure (default : Float) {x : Float}
    (hgiven : List.lookup name fields = some (.real x)) :
    Yields (optional fields name default asMeasure) (· = x) (0 ≤ x) :=
  yields_optional hgiven (fun h => if_pos h) fun h => ⟨_, if_neg h⟩

/-- Numbering starts at one. -/
theorem asCount_int (n : Nat) : (1 ≤ n → TestCase.asCount (.int n) = .ok n) ∧
    (¬ 1 ≤ n → ∃ cause, TestCase.asCount (.int n) = .error cause) := by
  unfold TestCase.asCount
  constructor
  · intro h
    rw [(atLeast_int 1 n).1 (by omega)]
    rfl
  · intro h
    obtain ⟨cause, hcause⟩ := (atLeast_int 1 n).2 (by omega)
    rw [hcause]
    exact ⟨cause, rfl⟩

/-- The named values of a result. -/
def named (c : TestCase) (sample : Nat) (m : Metrics) : Fields :=
  [("uuid", .text c.uuid), ("sample", .int sample)] ++ m.fields

theorem yields_metrics (c : TestCase) (sample : Nat) (m : Metrics) :
    Yields (metricsIntake (named c sample m)) (· = m) m.Nonnegative := by
  have hparts : m.Nonnegative ↔ 0 ≤ m.requests ∧ 0 ≤ m.rps ∧ 0 ≤ m.avgLatency ∧
      0 ≤ m.maxLatency ∧ 0 ≤ m.p90Latency ∧ 0 ≤ m.p95Latency ∧ 0 ≤ m.p99Latency ∧
      0 ≤ m.httpErrors ∧ 0 ≤ m.timeouts ∧ True := by
    refine ⟨fun h => ⟨h.1, h.2, h.3, h.4, h.5, h.6, h.7, h.8, h.9, trivial⟩, ?_⟩
    rintro ⟨h₁, h₂, h₃, h₄, h₅, h₆, h₇, h₈, h₉, -⟩
    exact ⟨h₁, h₂, h₃, h₄, h₅, h₆, h₇, h₈, h₉⟩
  rw [hparts]
  unfold metricsIntake
  refine Yields.bind (yields_count _ rfl) fun _ => ?_
  iterate 6 refine Yields.bind (yields_measure _ rfl) fun _ => ?_
  iterate 2 refine Yields.bind (yields_count _ rfl) fun _ => ?_
  refine yields_pure ?_
  rintro rfl rfl rfl rfl rfl rfl rfl rfl rfl
  rfl

theorem yields_result (now : Moment) (c : TestCase) (metadata : ClusterMetadata) (sample : Nat)
    (m : Metrics) :
    Yields (intakeWith now (return c) (return metadata) (named c sample m))
      (· = { uuid := c.uuid, sample, timestamp := now, config := c, metadata, metrics := m })
      (1 ≤ sample ∧ m.Nonnegative) := by
  have hparts : (1 ≤ sample ∧ m.Nonnegative) ↔
      True ∧ 1 ≤ sample ∧ True ∧ True ∧ True ∧ m.Nonnegative ∧ True ∧ True := by
    simp
  rw [hparts]
  unfold intakeWith
  refine Yields.bind (yields_required (v := c.uuid) rfl (fun _ => rfl)
    fun h => absurd trivial h) fun _ => ?_
  refine Yields.bind (yields_required rfl (asCount_int sample).1 (asCount_int sample).2) fun _ => ?_
  refine Yields.bind (yields_absent rfl) fun _ => ?_
  iterate 2 refine Yields.bind (yields_pure rfl) fun _ => ?_
  refine Yields.bind (yields_metrics c sample m) fun _ => ?_
  refine Yields.bind (yields_absent rfl) fun _ => ?_
  refine yields_pure ?_
  rintro rfl rfl rfl rfl rfl rfl rfl
  rfl

/-- **Measurements that are not negative make a result**, which holds what it was given. -/
theorem ofMetrics_ok (now : Moment) (c : TestCase) (metadata : ClusterMetadata) {sample : Nat}
    (hsample : 1 ≤ sample) {m : Metrics} (hm : m.Nonnegative) :
    ofMetrics now c metadata sample m = .ok
      { uuid := c.uuid, sample, timestamp := now, config := c, metadata, metrics := m } := by
  obtain ⟨r, hr, rfl⟩ := ((yields_result now c metadata sample m).finish "Result").1 ⟨hsample, hm⟩
  exact hr

/-- Other measurements make none. -/
theorem ofMetrics_invalid (now : Moment) (c : TestCase) (metadata : ClusterMetadata) (sample : Nat)
    {m : Metrics} (hm : ¬ m.Nonnegative) :
    ∃ issues, ofMetrics now c metadata sample m = .error (.invalid "Result" issues) :=
  ((yields_result now c metadata sample m).finish "Result").2 fun h => hm h.2

end Result
end IngressBench
