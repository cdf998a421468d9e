import IngressBench.Proofs.Benchmark.Failing
import IngressBench.Proofs.TestCase

/-!
The load that a measurement applies. In every sample each process of each pod runs the command once,
all processes of a pod in a row, and between two samples there is a pause if the test case asks for
one (`Load.loadOf`). A measurement that ends with results has applied exactly this, after one look at the
route and one at the pods, and every result sums up the outputs of its own sample
(`Load.Applies`). A command that fails is the last thing that happens, and without enough pods no
command is run at all (`Load.run_applies_load`).
-/
namespace IngressBench

variable {τ : Type}

/-! ### Views of a row -/

/-- Whether a question is asked in passing: it is for the routers, or for the time. -/
def Question.isAside : Question → Bool
  | .http _ | .stamp => true
  | _ => false

/-- A piece of the work of a measurement. -/
inductive Work (τ : Type) where
  | slept (time : τ)
  | stopped
  | asked (question : Question)

/-- The work that an event is part of; neither the log nor what is asked in passing is. -/
def Event.work? : Event τ → Option (Work τ)
  | .slept time => some (.slept time)
  | .stopped => some .stopped
  | .logged .. => none
  | .asked q _ _ => if q.isAside then none else some (.asked q)

/-- The work of a row, in order. -/
def work (evs : List (Event τ)) : List (Work τ) :=
  evs.filterMap Event.work?

theorem work_append (first rest : List (Event τ)) : work (first ++ rest) = work first ++ work rest :=
  List.filterMap_append

theorem work_cons_logged (level : Level) (text : String) (evs : List (Event τ)) :
    work (.logged level text :: evs) = work evs := rfl

theorem work_logged (lines : List (Level × String)) : work (logged lines : List (Event τ)) = [] := by
  induction lines with
  | nil => rfl
  | cons line lines ih => exact ih

namespace Load

theorem outputs_cons_logged (level : Level) (text : String) (evs : List (Event τ)) :
    outputs (.logged level text :: evs) = outputs evs := rfl

theorem outputs_logged (lines : List (Level × String)) :
    outputs (logged lines : List (Event τ)) = [] := by
  induction lines with
  | nil => rfl
  | cons line lines ih => exact ih

variable {ns : String} {c : TestCase} {metadata : ClusterMetadata} {routers : Routers}
  {command : List String} {pod : Option String} {pods : List (Option String)} {number left : Nat}
  {evs : List (Event τ)}

/-! ### Commands -/

theorem runAll_work {outs : List Document}
    (h : (runAll ns command pods : Action τ (List Document)).Leaves evs (.ok outs)) :
    work evs = pods.map fun pod => .asked (commandIn ns command pod) := by
  induction pods generalizing evs outs with
  | nil =>
    obtain ⟨rfl, -⟩ := Action.leaves_pure.mp h
    rfl
  | cons pod rest ih =>
    obtain ⟨d, first, second, hd, h₁, rfl⟩ := Action.leaves_bind_ok.mp h
    obtain ⟨ds, third, last, hds, h₂, rfl⟩ := Action.leaves_bind_ok.mp h₁
    obtain ⟨rfl, -⟩ := Action.leaves_pure.mp h₂
    obtain ⟨reply, time, rfl, -⟩ := runIn_hears hd
    rw [List.append_nil, work_append, ih hds]
    rfl

/-! ### Samples -/

/-- The commands of a sample: every process of every pod, all processes of a pod in a row. -/
def round (ns : String) (command : List String) (pods : List (Option String)) (procs : Nat) :
    List (Work τ) :=
  pods.flatMap fun pod => List.replicate procs (.asked (commandIn ns command pod))

/-- A result sums up these outputs, as the sample of this number. -/
structure Sums (c : TestCase) (metadata : ClusterMetadata) (number : Nat) (outs : List Document)
    (result : Result) : Prop where
  uuid : result.uuid = c.uuid
  sample : result.sample = number
  config : result.config = c
  metadata : result.metadata = metadata
  metrics : Aggregate.ofOutputs outs = .ok result.metrics

theorem map_targets (ns : String) (command : List String) (pods : List (Option String))
    (procs : Nat) :
    (targets pods procs).map (fun pod => .asked (commandIn ns command pod)) =
      (round ns command pods procs : List (Work τ)) := by
  simp [targets, round, List.map_flatMap]

/-- Measurements that are accepted sum up their outputs. -/
theorem sums_of_ofMetrics {now : Moment} {outs : List Document} {m : Metrics} {result : Result}
    (hnumber : 1 ≤ number) (hm : Aggregate.ofOutputs outs = .ok m)
    (h : Result.ofMetrics now c metadata number m = .ok result) :
    Sums c metadata number outs result := by
  by_cases hnonneg : m.Nonnegative
  · rw [Result.ofMetrics_ok now c metadata hnumber hnonneg] at h
    cases h
    exact ⟨rfl, rfl, rfl, rfl, hm⟩
  · obtain ⟨issues, hinvalid⟩ := Result.ofMetrics_invalid now c metadata number hnonneg
    rw [hinvalid] at h
    cases h

theorem Sums.withRouterCpu {outs : List Document} {result : Result}
    (h : Sums c metadata number outs result) (cpu : Option Float) :
    Sums c metadata number outs { result with routerCpu := cpu } :=
  ⟨h.uuid, h.sample, h.config, h.metadata, h.metrics⟩

variable [TimeScale τ]

omit [TimeScale τ] in
/-- **A sample that ends with a result has run its commands**, and sums up their outputs. -/
theorem sample_ok {seconds : Int} (hseconds : wholeSeconds c.duration = .ok seconds)
    (hnumber : 1 ≤ number) {result : Result}
    (h : (sample ns c metadata routers command pods number : Action τ Result).Leaves evs
      (.ok result)) :
    work evs = round ns command pods c.procs ∧ (outputs evs).length = pods.length * c.procs ∧
      Sums c metadata number (outputs evs) result := by
  obtain ⟨rest, h₁, rfl⟩ := Action.leaves_log_bind.mp h
  obtain ⟨outs, first, second, houts, h₂, rfl⟩ := Action.leaves_bind_ok.mp h₁
  have hwork := (runAll_work houts).trans (map_targets ns command pods c.procs)
  rcases runAll_leaves houts with ⟨hok, hlength, -⟩ | ⟨_, hx, -⟩
  rotate_left
  · cases hx
  cases hok
  rw [length_targets] at hlength
  -- What follows the commands is done in passing, and makes the result of their outputs.
  suffices hrest : work second = [] ∧ outputs second = [] ∧
      Sums c metadata number (outputs first) result by
    obtain ⟨hquiet, hnone, hsums⟩ := hrest
    rw [work_cons_logged, outputs_cons_logged, work_append, outputs_append, hquiet, hnone, hwork,
      List.append_nil, List.append_nil]
    exact ⟨rfl, hlength, hsums⟩
  rcases Action.leaves_ofExcept_bind.mp h₂ with ⟨_, -, -, hx⟩ | ⟨m, hm, h₃⟩
  · cases hx
  obtain ⟨now, time, rest, h₄, rfl⟩ := Action.leaves_ask_bind.mp h₃
  rcases Action.leaves_ofExcept_bind.mp h₄ with ⟨_, -, -, hx⟩ | ⟨measured, hmeasured, h₅⟩
  · cases hx
  have hsums := sums_of_ofMetrics hnumber hm hmeasured
  cases routers with
  | none =>
    obtain ⟨rest, h₆, rfl⟩ := Action.leaves_log_bind.mp h₅
    obtain ⟨rfl, hresult⟩ := Action.leaves_pure.mp h₆
    cases hresult
    exact ⟨rfl, rfl, hsums⟩
  | some server =>
    obtain ⟨cpu, third, fourth, hcpu, h₆, rfl⟩ := Action.leaves_bind_ok.mp h₅
    obtain ⟨reply, asked, -, rfl⟩ := routerCpu_leaves hseconds hcpu
    obtain ⟨rest, h₇, rfl⟩ := Action.leaves_log_bind.mp h₆
    obtain ⟨rfl, hresult⟩ := Action.leaves_pure.mp h₇
    cases hresult
    refine ⟨?_, ?_, hsums.withRouterCpu cpu⟩
    · show work (logged _ ++ _) = []
      rw [work_append, work_logged]
      rfl
    · show outputs (logged _ ++ _) = []
      rw [outputs_append, outputs_logged]
      rfl

/-- The pause between two samples, if the test case asks for one. -/
def interlude (c : TestCase) : List (Work τ) :=
  if c.delay != 0 then [.slept (TimeScale.ofSeconds c.delay)] else []

theorem work_pauseBefore (left : Nat) :
    work (pauseBefore c left : List (Event τ)) = if left = 0 then [] else interlude c := by
  unfold pauseBefore interlude
  cases left with
  | zero => simp [work]
  | succ left => cases c.delay != 0 <;> rfl

/-- The load of so many samples: their commands, with a pause between every two of them. -/
def loadOf (count : Nat) (ns : String) (c : TestCase) (command : List String)
    (pods : List (Option String)) : List (Work τ) :=
  (interlude c).intercalate (List.replicate count (round ns command pods c.procs))

theorem loadOf_succ_succ (count : Nat) :
    (loadOf (count + 2) ns c command pods : List (Work τ)) =
      round ns command pods c.procs ++ interlude c ++ loadOf (count + 1) ns c command pods := by
  unfold loadOf
  rw [List.replicate_succ, List.replicate_succ, List.intercalate_cons_cons]

/-- Every result sums up the outputs of its own sample, when each sample has so many. -/
structure Accounts (c : TestCase) (metadata : ClusterMetadata) (size number count : Nat)
    (outs : List Document) (results : List Result) : Prop where
  length_outputs : outs.length = count * size
  length_results : results.length = count
  sums : ∀ i result, results[i]? = some result →
    Sums c metadata (number + i) (block size i outs) result

omit [TimeScale τ] in
theorem Accounts.cons {size count : Nat} {first rest : List Document} {result : Result}
    {results : List Result} (hlength : first.length = size)
    (hfirst : Sums c metadata number first result)
    (hrest : Accounts c metadata size (number + 1) count rest results) :
    Accounts c metadata size number (count + 1) (first ++ rest) (result :: results) where
  length_outputs := by
    rw [List.length_append, hlength, hrest.length_outputs, Nat.add_mul]
    omega
  length_results := by rw [List.length_cons, hrest.length_results]
  sums := by
    intro i other hother
    cases i with
    | zero =>
      cases hother
      rw [block, Nat.zero_mul, List.drop_zero, List.take_left' hlength]
      exact hfirst
    | succ i =>
      have hnumber : number + (i + 1) = number + 1 + i := by omega
      rw [block_append hlength, hnumber]
      exact hrest.sums i other hother

/-- **Samples that end with results have applied their load**, and each result sums up its own
sample; by induction on the samples that are left. -/
theorem samples_ok {seconds : Int} (hseconds : wholeSeconds c.duration = .ok seconds)
    (hnumber : 1 ≤ number) {results : List Result}
    (h : (samples ns c metadata routers command pods number left : Action τ (List Result)).Leaves
      evs (.ok results)) :
    work evs = loadOf left ns c command pods ∧
      Accounts c metadata (pods.length * c.procs) number left (outputs evs) results := by
  induction left generalizing number evs results with
  | zero =>
    obtain ⟨rfl, hresults⟩ := Action.leaves_pure.mp h
    cases hresults
    refine ⟨?_, (Nat.zero_mul _).symm, rfl, fun i result hi => ?_⟩
    · rw [loadOf, List.replicate_zero, List.intercalate_nil]
      rfl
    · rw [List.getElem?_nil] at hi
      cases hi
  | succ left ih =>
    rcases samples_cases h with ⟨_, -, hx⟩ | ⟨result, first, rest, later, hresult, hlater, hr, rfl⟩
    · cases hx
    cases later with
    | error x => cases hr
    | ok later =>
      cases hr
      obtain ⟨hwork, hlength, hsums⟩ := sample_ok hseconds hnumber hresult
      obtain ⟨hload, haccounts⟩ := ih (by omega) hlater
      rw [outputs_append, outputs_append, outputs_pauseBefore, List.nil_append]
      refine ⟨?_, haccounts.cons hlength hsums⟩
      rw [work_append, work_append, hwork, hload, work_pauseBefore]
      cases left with
      | zero => simp [loadOf]
      | succ left => rw [loadOf_succ_succ, if_neg (Nat.succ_ne_zero left), List.append_assoc]

/-! ### Measurements -/

/-- A measurement that ended with these results has applied the load of its test case, to the pods
that the preparation found, and the results account for it. -/
structure Applies (ns : String) (c : TestCase) (metadata : ClusterMetadata) (evs : List (Event τ))
    (results : List Result) : Prop where
  course : ∃ first rest prepared, evs = first ++ rest ∧ Prepares ns c first prepared ∧
    work rest = loadOf c.samples ns c prepared.1 prepared.2
  accounts : Accounts c metadata (c.concurrency * c.procs) 1 c.samples (outputs evs) results

omit [TimeScale τ] in
/-- A row that only probes lists no pods. -/
theorem not_names_of_probes {e : Event τ} (h : e.Asks Question.Probes)
    (names : List (Option String)) : ¬ e.Names names := by
  intro hnames
  unfold Event.Names at hnames
  split at hnames
  · exact h
  · exact hnames

omit [TimeScale τ] in
theorem not_isExec_of_locates {e : Event τ} (h : e.Asks Question.Locates) : e.isExec = false := by
  unfold Event.isExec
  split
  · exact h.elim
  · rfl

omit [TimeScale τ] in
theorem Prepares.outputs_eq {prepared : List String × List (Option String)}
    (h : Prepares ns c evs prepared) : outputs evs = [] := by
  obtain ⟨-, -, -, -⟩ := h
  rfl

/-- A measurement is its preparation and its samples, or a preparation that failed. -/
theorem run_cases {metrics : Option MetricsServer} {podMetrics : Bool}
    {r : Except Failure (List Result)}
    (h : (run ns c metadata metrics podMetrics : Action τ (List Result)).Leaves evs r) :
    (∃ first rest prepared, evs = first ++ rest ∧ Prepares ns c first prepared ∧
      (samples ns c metadata (if podMetrics then metrics else none) prepared.1 prepared.2 1
        c.samples : Action τ (List Result)).Leaves rest r) ∨
    ∃ x, r = .error (preparationFailure x) ∧ Misses c evs x ∧ ∀ e ∈ evs, e.isExec = false := by
  obtain ⟨e, first, rest, he, hr, rfl⟩ := Action.leaves_attempt_bind.mp h
  rcases prepare_cases he with ⟨prepared, rfl, hprepares⟩ | ⟨x, rfl, hmisses⟩
  · exact .inl ⟨first, rest, prepared, rfl, hprepares, hr⟩
  · obtain ⟨rfl, rfl⟩ := Action.leaves_throw.mp hr
    rw [List.append_nil]
    exact .inr ⟨x, rfl, hmisses, fun e' he' =>
      not_isExec_of_locates (asks_prepare ns c _ _ he e' he')⟩

/-- **A measurement applies exactly the load that is asked for.** If it ends with results, it has; if
too few pods are listed, no command is run; a command that fails is the last event, and there are no
results; and there are always outputs to combine. -/
theorem run_applies_load (hc : c.Accepted) (metrics : Option MetricsServer) (podMetrics : Bool)
    {r : Except Failure (List Result)}
    (h : (run ns c metadata metrics podMetrics : Action τ (List Result)).Leaves evs r) :
    (∀ results, r = .ok results → Applies ns c metadata evs results) ∧
    (∀ names, (∃ e ∈ evs, e.Names names) → names.length < c.concurrency →
      (∀ e ∈ evs, e.isExec = false) ∧
        r = .error (.benchmark (.pods c.concurrency names.length))) ∧
    (∀ before e after, evs = before ++ e :: after → e.isExec = true → e.output? = none →
      after = [] ∧ ∃ x, r = .error x) ∧
    ((∀ outs, Aggregate.ofOutputs outs = .error (.benchmark .noOutput) ↔ outs = []) ∧
      r ≠ .error (.benchmark .noOutput)) := by
  have hvalid := hc.valid
  refine ⟨?_, ?_, ?_, ofOutputs_noOutput_iff, ?_⟩
  · rintro results rfl
    rcases run_cases h with ⟨first, rest, prepared, rfl, hprepares, hsamples⟩ | ⟨_, hx, -⟩
    · obtain ⟨seconds, hseconds⟩ := hprepares.seconds
      obtain ⟨hload, haccounts⟩ := samples_ok hseconds (Nat.le_refl 1) hsamples
      rw [hprepares.length_pods] at haccounts
      refine ⟨⟨first, rest, prepared, rfl, hprepares, hload⟩, ?_⟩
      rwa [outputs_append, hprepares.outputs_eq]
    · cases hx
  · intro names hlisted hshort
    rcases run_cases h with ⟨first, rest, prepared, rfl, hprepares, hsamples⟩ | ⟨x, rfl, hmisses, hnone⟩
    · -- The pods were listed in the preparation, and were enough.
      obtain ⟨e, he, hnames⟩ := hlisted
      rcases List.mem_append.mp he with he | he
      · exact absurd (hprepares.le_length ⟨e, he, hnames⟩) (by omega)
      · exact absurd hnames
          (not_names_of_probes (asks_samples _ _ _ _ _ _ _ _ _ _ hsamples e he) names)
    · rw [hmisses.short names hlisted]
      exact ⟨hnone, rfl⟩
  · rintro before e after rfl hexec hout
    obtain ⟨x, hx⟩ := fault?_of_fails hexec hout
    have hends : (run ns c metadata metrics podMetrics :
        Action τ (List Result)).EndsAt fault? := by
      apply endsAt_run
      · intro e he
        exact fault?_of_asks e (he.mono fun q hq call hcall => hq (hcall ▸ trivial))
      · intro command pod
        exact endsAt_runIn
      · intro server seconds _
        exact Action.endsAt_of_only
          (Action.Only.mono (asks_routerCpu (fun _ => nofun) server c) fault?_of_asks)
    obtain ⟨hlast, hfailed⟩ := hends _ _ _ _ _ h hx
    exact ⟨hlast, x, hfailed⟩
  · rintro rfl
    rcases run_cases h with ⟨first, rest, prepared, rfl, hprepares, hsamples⟩ | ⟨x, hx, hmisses, -⟩
    · obtain ⟨seconds, hseconds⟩ := hprepares.seconds
      have hsize : 0 < prepared.2.length * c.procs := by
        rw [hprepares.length_pods]
        exact Nat.mul_pos hvalid.concurrency hvalid.procs
      exact fails_samples hseconds (Nat.le_refl 1) hsize _ _ hsamples rfl
    · exact hmisses.measurable (Except.error.inj hx).symm

/-- Two samples of two processes, a second apart. -/
def spaced : TestCase :=
  { samples := 2, procs := 2, delay := 1.0, given := ["samples", "procs", "delay"] }

set_option maxRecDepth 4000 in
theorem accepted_spaced : spaced.Accepted := by
  have hread : TestCase.ofFields [("samples", .int 2), ("procs", .int 2), ("delay", .int 1)] =
      .ok spaced := by rfl
  exact .read hread

/-- Where every command prints an empty mapping there are results, of the whole load. -/
theorem run_applies_load_spaced :
    let t := (printing "{}" (.ok route)).trace 0 () (run "bench" spaced {} none true).run
    spaced.Accepted ∧ ∃ results, t.1 = .ok results ∧ Applies "bench" spaced {} t.2 results := by
  intro t
  have hends : t.1.isOk = true := by decide +kernel
  obtain ⟨results, hresults⟩ : ∃ results, t.1 = .ok results := by
    cases houtcome : t.1 with
    | ok results => exact ⟨results, rfl⟩
    | error x =>
      rw [houtcome] at hends
      cases hends
  exact ⟨accepted_spaced, results, hresults,
    (run_applies_load accepted_spaced none true (World.trace_leaves _ 0 () _)).1 results hresults⟩

end Load
end IngressBench
