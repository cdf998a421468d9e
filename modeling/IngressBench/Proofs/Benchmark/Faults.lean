import IngressBench.Proofs.Benchmark.Steps
import IngressBench.Proofs.Outcome
import IngressBench.Proofs.Result
import IngressBench.Proofs.Run.Sample
import IngressBench.Proofs.Stop

/-!
How measuring ends when the metrics are not asked for: with one result for each sample, or with a
fault of the benchmark, exactly when nothing happens that it is not prepared for (`Workable`,
`Load.run_completes_iff`). What it is not prepared for are calls that are not answered, answers
without the parts it looks for, a duration without end, and outputs of a load generator that are
documents but no measurements, or negative ones.

The preparation, a command in a pod, a sample and a row of samples each have a lemma that tells
their events and their end together; the last one is an induction on the samples, since the outputs
of the first sample come before those of the others (`sound_append`).
-/
namespace IngressBench

variable {τ α : Type}

/-! ### Outcomes -/

/-- Whether a failure is a fault of the benchmark. -/
def Failure.isBenchmark : Failure → Bool
  | .benchmark _ => true
  | _ => false

/-- An event that a measurement is not prepared for: a call that is not answered, a route that is no
mapping where its host is looked for, or pods whose names cannot be told. -/
def Event.Baffles : Event τ → Prop
  | .asked (.api _) (.error (.unreachable _)) _ => True
  | .asked (.exec _) (.error (.unreachable _)) _ => True
  | .asked (.api (.readRoute ..)) (.ok route) _ =>
    ∃ x, Discovery.hostOf route = .error x ∧ ∀ shown, x ≠ .key shown
  | .asked (.api (.listPods ..)) (.ok pods) _ => ∃ x, Load.podNames pods = .error x
  | _ => False

/-- The address of the route was found. -/
def Event.FindsHost : Event τ → Prop
  | .asked (.api (.readRoute ..)) (.ok route) _ => ∃ host, Discovery.hostOf route = .ok host
  | _ => False

/-- The document that a load generator printed, if it printed one. -/
def Event.output? : Event τ → Option Document
  | .asked (.exec _) (.ok (.text s)) _ => (Json.read s).toOption
  | _ => none

namespace Load

variable {ns : String} {c : TestCase} {evs : List (Event τ)}

/-- The documents that load generators printed, in order. -/
def outputs (evs : List (Event τ)) : List Document :=
  evs.filterMap Event.output?

/-- Outputs that make a result, or too few to make one. -/
def Acceptable (outs : List Document) : Prop :=
  (∃ m, Aggregate.ofOutputs outs = .ok m ∧ m.Nonnegative) ∨
    ∃ fault, Aggregate.ofOutputs outs = .error (.benchmark fault)

/-- The outputs of one sample among those of all of them, when each has so many. -/
def block (size i : Nat) (outs : List Document) : List Document :=
  (outs.drop (i * size)).take size

/-- Nothing happened that a measurement is not prepared for. -/
structure Workable (c : TestCase) (evs : List (Event τ)) : Prop where
  answered : ∀ e ∈ evs, ¬ e.Baffles
  /-- The duration has an end, if a command line is made. -/
  finite : (∃ e ∈ evs, e.FindsHost) → ∃ seconds, wholeSeconds c.duration = .ok seconds
  /-- The outputs of every sample that was measured are acceptable. -/
  acceptable : ∀ i, (i + 1) * (c.concurrency * c.procs) ≤ (outputs evs).length →
    Acceptable (block (c.concurrency * c.procs) i (outputs evs))

/-- A measurement ends with all its results, numbered from one, or with a fault of the benchmark. -/
def Completes (c : TestCase) (r : Except Failure (List Result)) : Prop :=
  (∃ results, r = .ok results ∧ results.length = c.samples ∧
    results.map Result.sample = List.range' 1 c.samples) ∨ ∃ fault, r = .error (.benchmark fault)

/-! ### Preparation -/

theorem under_error {d : Document} {name : String} {x : Failure} (h : d.under name = .error x) :
    (∃ shown, x = .key shown) ∨ ∃ text, x = .kind text := by
  unfold Document.under at h
  split at h
  · split at h <;> cases h
    exact .inl ⟨_, rfl⟩
  all_goals
    cases h
    exact .inr ⟨_, rfl⟩

theorem hostOf_error {route : Document} {x : Failure} (h : Discovery.hostOf route = .error x) :
    (∃ shown, x = .key shown) ∨ ∃ text, x = .kind text := by
  rcases bind_eq_error_iff.mp h with hspec | ⟨d, -, hhost⟩
  · exact under_error hspec
  · exact under_error hhost

theorem wholeSeconds_error {x : Float} {y : Failure} (h : wholeSeconds x = .error y) :
    (preparationFailure y).isBenchmark = false := by
  unfold wholeSeconds at h
  split at h
  · cases h
  · split at h <;> cases h <;> rfl

/-- There is a command line when the duration has an end. -/
theorem command_cases (c : TestCase) (address : String) :
    (∃ x, wholeSeconds c.duration = .error x ∧ c.command address = .error x) ∨
      ∃ seconds command, wholeSeconds c.duration = .ok seconds ∧
        c.command address = .ok command := by
  unfold TestCase.command TestCase.commandFor TestCase.wrkCommand TestCase.hloaderCommand
  cases wholeSeconds c.duration with
  | error x =>
    refine .inl ⟨x, rfl, ?_⟩
    split <;> rfl
  | ok seconds =>
    refine .inr ⟨seconds, ?_⟩
    split <;> exact ⟨_, rfl, rfl⟩

theorem seconds_of_command {address : String} {command : List String}
    (h : c.command address = .ok command) :
    ∃ seconds, wholeSeconds c.duration = .ok seconds := by
  rcases command_cases c address with ⟨x, -, hx⟩ | ⟨seconds, _, hseconds, -⟩
  · rw [h] at hx
    cases hx
  · exact ⟨seconds, hseconds⟩

theorem endless_of_command {address : String} {x : Failure} (h : c.command address = .error x) :
    wholeSeconds c.duration = .error x := by
  rcases command_cases c address with ⟨y, hendless, hy⟩ | ⟨_, _, -, hok⟩
  · rw [h] at hy
    cases hy
    exact hendless
  · rw [h] at hok
    cases hok

/-- What is missing from an answer is no fault of the benchmark. -/
theorem present_error {β : Type} {name : String} {part : Option β} {x : Failure}
    (h : present name part = .error x) : (preparationFailure x).isBenchmark = false := by
  cases part <;> cases h
  rfl

theorem mapM_podName_error {pods : List Pod} {x : Failure} (h : pods.mapM podName = .error x) :
    (preparationFailure x).isBenchmark = false := by
  induction pods with
  | nil => cases h
  | cons p rest ih =>
    rw [List.mapM_cons] at h
    rcases bind_eq_error_iff.mp h with hname | ⟨_, -, h₁⟩
    · rcases bind_eq_error_iff.mp hname with hmeta | ⟨_, -, hx⟩
      · exact present_error hmeta
      · cases hx
    · rcases bind_eq_error_iff.mp h₁ with hrest | ⟨_, -, hx⟩
      · exact ih hrest
      · cases hx

theorem podNames_error {pods : Option (Listing Pod)} {x : Failure} (h : podNames pods = .error x) :
    (preparationFailure x).isBenchmark = false := by
  rcases bind_eq_error_iff.mp h with hall | ⟨items, -, hnames⟩
  · rcases bind_eq_error_iff.mp hall with hlisting | ⟨⟨_ | _⟩, -, hx⟩
    · exact present_error hlisting
    · cases hx
      rfl
    · cases hx
  · exact mapM_podName_error hnames

/-- The route is asked for, and nothing else. -/
theorem url_leaves {r : Except Failure String} (h : Finds ns c evs r) :
    ∃ e, evs = [e] ∧ e.output? = none ∧
      ((∃ address, r = .ok address ∧ ¬ e.Baffles ∧ e.FindsHost) ∨
        ∃ x, r = .error x ∧ ((preparationFailure x).isBenchmark = true ↔ ¬ e.Baffles) ∧
          ¬ e.FindsHost) := by
  cases h with
  | @refused fault _ =>
    refine ⟨_, rfl, rfl, .inr ⟨_, rfl, ?_, id⟩⟩
    cases fault <;>
      simp [Event.Baffles, ApiFault.failure, preparationFailure, Failure.isBenchmark]
  | hostless hx =>
    refine ⟨_, rfl, rfl, .inr ⟨_, rfl, ?_, by simp [Event.FindsHost, routeCall, hx]⟩⟩
    rcases hostOf_error hx with ⟨shown, rfl⟩ | ⟨text, rfl⟩ <;>
      simp [Event.Baffles, routeCall, hx, preparationFailure, Failure.isBenchmark]
  | found hhost =>
    exact ⟨_, rfl, rfl, .inl ⟨_, rfl, by simp [Event.Baffles, routeCall, hhost], _, hhost⟩⟩

/-- The pods are asked for, and nothing else. -/
theorem clientPods_leaves {expected : Nat} {r : Except Failure (List (Option String))}
    (h : Lists ns expected evs r) :
    ∃ e, evs = [e] ∧ e.output? = none ∧ ¬ e.FindsHost ∧
      ((∃ pods, r = .ok pods ∧ ¬ e.Baffles ∧ pods.length = expected) ∨
        ∃ x, r = .error x ∧ ((preparationFailure x).isBenchmark = true ↔ ¬ e.Baffles)) := by
  cases h with
  | @refused fault _ =>
    refine ⟨_, rfl, rfl, id, .inr ⟨_, rfl, ?_⟩⟩
    cases fault <;>
      simp [Event.Baffles, ApiFault.failure, preparationFailure, Failure.isBenchmark]
  | nameless hx =>
    refine ⟨_, rfl, rfl, id, .inr ⟨_, rfl, ?_⟩⟩
    simp [Event.Baffles, podsCall, hx, podNames_error hx]
  | short hnames _ =>
    refine ⟨_, rfl, rfl, id, .inr ⟨_, rfl, ?_⟩⟩
    simp [Event.Baffles, podsCall, hnames, preparationFailure, Failure.isBenchmark]
  | enough hnames henough =>
    refine ⟨_, rfl, rfl, id, .inl ⟨_, rfl, by simp [Event.Baffles, podsCall, hnames], ?_⟩⟩
    rw [List.length_take]
    omega

/-- **A preparation ends with the command line and as many pods as there are clients**, or with a
failure that is a fault of the benchmark unless something baffled it, or the duration has no end. -/
theorem prepare_leaves {r : Except Failure (List String × List (Option String))}
    (h : (prepare ns c : Action τ _).Leaves evs r) :
    outputs evs = [] ∧
      ((∃ prepared, r = .ok prepared ∧ prepared.2.length = c.concurrency ∧
          (∀ e ∈ evs, ¬ e.Baffles) ∧ ∃ seconds, wholeSeconds c.duration = .ok seconds) ∨
        ∃ x, r = .error x ∧ ((preparationFailure x).isBenchmark = true ↔ (∀ e ∈ evs, ¬ e.Baffles) ∧
          ((∃ e ∈ evs, e.FindsHost) → ∃ seconds, wholeSeconds c.duration = .ok seconds))) := by
  cases prepare_preparing h with
  | @lost _ x hfinds =>
    obtain ⟨e, rfl, hout, hends⟩ := url_leaves hfinds
    obtain ⟨hiff, hhost⟩ : ((preparationFailure x).isBenchmark = true ↔ ¬ e.Baffles) ∧
        ¬ e.FindsHost := by simpa using hends
    exact ⟨by simp [outputs, hout], .inr ⟨x, rfl, by simp [hiff, hhost]⟩⟩
  | @speechless _ _ x hfinds hx =>
    obtain ⟨e, rfl, hout, hends⟩ := url_leaves hfinds
    obtain ⟨hclear, hhost⟩ : ¬ e.Baffles ∧ e.FindsHost := by simpa using hends
    have hendless := endless_of_command hx
    refine ⟨by simp [outputs, hout], .inr ⟨x, rfl, ?_⟩⟩
    simp [hclear, hhost, hendless, wholeSeconds_error hendless]
  | staffed hfinds hcommand hlists =>
    obtain ⟨e, rfl, hout, hends⟩ := url_leaves hfinds
    obtain ⟨hclear, hhost⟩ : ¬ e.Baffles ∧ e.FindsHost := by simpa using hends
    obtain ⟨seconds, hseconds⟩ := seconds_of_command hcommand
    obtain ⟨e', rfl, hout', hhost', ⟨pods, rfl, hclear', hlength⟩ | ⟨x, rfl, hiff⟩⟩ :=
      clientPods_leaves hlists
    · exact ⟨by simp [outputs, hout, hout'],
        .inl ⟨_, rfl, hlength, by simp [hclear, hclear'], seconds, hseconds⟩⟩
    · exact ⟨by simp [outputs, hout, hout'], .inr ⟨x, rfl, by simp [hiff, hclear, hseconds]⟩⟩

/-! ### Samples -/

/-- A document is printed when it is heard. -/
theorem output?_exec (call : ExecCall) (reply : Except ApiFault Document) (time : τ) :
    Event.output? (.asked (.exec call) reply time) = (heard call.pod reply).toOption := by
  cases reply with
  | error fault => cases fault <;> rfl
  | ok output =>
    cases output with
    | text s =>
      show (Json.read s).toOption = ((Json.read s).mapError _).toOption
      cases Json.read s <;> rfl
    | _ => rfl

/-- What is not heard is a fault of the benchmark, unless there was no answer. -/
theorem heard_error {command : List String} {pod : Option String}
    {reply : Except ApiFault Document} {x : Failure} (time : τ) (h : heard pod reply = .error x) :
    x.isBenchmark = true ↔ ¬ (Event.asked (commandIn ns command pod) reply time).Baffles := by
  cases reply with
  | error fault =>
    cases fault <;> cases h <;> simp [Event.Baffles, commandIn, Failure.isBenchmark]
  | ok output =>
    have hclear : ¬ (Event.asked (commandIn ns command pod) (.ok output) time).Baffles := id
    cases output with
    | text s =>
      obtain ⟨cause, -, rfl⟩ := mapError_eq_error_iff.mp h
      exact iff_of_true rfl hclear
    | _ =>
      cases h
      exact iff_of_true rfl hclear

/-- A command is run once; without a document it is a fault of the benchmark, unless there was no
answer. -/
theorem runIn_leaves {command : List String} {pod : Option String} {r : Except Failure Document}
    (h : (runIn ns command pod : Action τ Document).Leaves evs r) :
    ∃ e, evs = [e] ∧ ((∃ d, r = .ok d ∧ e.output? = some d ∧ ¬ e.Baffles) ∨
      ∃ x, r = .error x ∧ e.output? = none ∧ (x.isBenchmark = true ↔ ¬ e.Baffles)) := by
  obtain ⟨reply, time, rfl, rfl⟩ := runIn_hears h
  have hout : Event.output? (.asked (commandIn ns command pod) reply time) =
      (heard pod reply).toOption := output?_exec _ reply time
  refine ⟨_, rfl, ?_⟩
  rw [hout]
  cases hheard : heard pod reply with
  | error x => exact .inr ⟨x, rfl, rfl, heard_error time hheard⟩
  | ok d =>
    refine .inl ⟨d, rfl, rfl, ?_⟩
    cases reply with
    | error fault => cases fault <;> cases hheard
    | ok output => exact id

theorem runAll_leaves {command : List String} {pods : List (Option String)}
    {r : Except Failure (List Document)}
    (h : (runAll ns command pods : Action τ (List Document)).Leaves evs r) :
    (r = .ok (outputs evs) ∧ (outputs evs).length = pods.length ∧ ∀ e ∈ evs, ¬ e.Baffles) ∨
      ∃ x, r = .error x ∧ (outputs evs).length < pods.length ∧
        (x.isBenchmark = true ↔ ∀ e ∈ evs, ¬ e.Baffles) := by
  induction pods generalizing evs r with
  | nil =>
    obtain ⟨rfl, rfl⟩ := Action.leaves_pure.mp h
    exact .inl (by simp [outputs])
  | cons pod rest ih =>
    rcases Action.leaves_bind.mp h with ⟨x, hx, rfl⟩ | ⟨d, first, second, hd, h₁, rfl⟩
    · obtain ⟨e, rfl, hends⟩ := runIn_leaves hx
      obtain ⟨hout, hiff⟩ : e.output? = none ∧ (x.isBenchmark = true ↔ ¬ e.Baffles) := by
        simpa using hends
      exact .inr ⟨x, rfl, by simp [outputs, hout], by simp [hiff]⟩
    obtain ⟨e, rfl, hends⟩ := runIn_leaves hd
    obtain ⟨hout, hclear⟩ : e.output? = some d ∧ ¬ e.Baffles := by simpa using hends
    have houtputs : outputs ([e] ++ second) = d :: outputs second := by simp [outputs, hout]
    rcases Action.leaves_bind.mp h₁ with ⟨x, hx, rfl⟩ | ⟨ds, third, last, hds, h₂, rfl⟩
    · rcases ih hx with ⟨hok, -⟩ | ⟨y, hy, hlength, hiff⟩
      · cases hok
      · obtain rfl := Except.error.inj hy
        rw [houtputs]
        exact .inr ⟨x, rfl, by simpa using hlength, by simp [hiff, hclear]⟩
    · rcases ih hds with ⟨hok, hlength, hrest⟩ | ⟨y, hy, -⟩
      · obtain rfl := Except.ok.inj hok
        obtain ⟨rfl, rfl⟩ := Action.leaves_pure.mp h₂
        rw [List.append_nil] at houtputs ⊢
        rw [houtputs]
        exact .inl ⟨rfl, by simpa using hlength, by simpa [hclear] using hrest⟩
      · cases hy

/-- Nothing baffles the samples, and their outputs are acceptable. -/
def Sound (size : Nat) (evs : List (Event τ)) : Prop :=
  (∀ e ∈ evs, ¬ e.Baffles) ∧
    ∀ i, (i + 1) * size ≤ (outputs evs).length → Acceptable (block size i (outputs evs))

/-- No outputs are too few to make a result. -/
theorem acceptable_nil : Acceptable [] :=
  .inr ⟨_, rfl⟩

/-- A row of one sample at most. -/
theorem sound_of_length_le {size : Nat} (h : (outputs evs).length ≤ size) :
    Sound size evs ↔ (∀ e ∈ evs, ¬ e.Baffles) ∧
      ((outputs evs).length = size → Acceptable (outputs evs)) := by
  refine and_congr_right fun _ => ⟨fun hblocks hlength => ?_, fun hone i hi => ?_⟩
  · have hfirst := hblocks 0 (by omega)
    rwa [block, Nat.zero_mul, List.drop_zero, List.take_of_length_le h] at hfirst
  · by_cases hsize : size = 0
    · subst hsize
      rw [block, List.take_zero]
      exact acceptable_nil
    · obtain rfl : i = 0 := by
        have hle : (i + 1) * size ≤ 1 * size := by omega
        have := Nat.le_of_mul_le_mul_right hle (by omega)
        omega
      rw [block, Nat.zero_mul, List.drop_zero, List.take_of_length_le h]
      exact hone (by omega)

theorem block_append {size : Nat} {first : List Document} (h : first.length = size) (i : Nat)
    (rest : List Document) : block size (i + 1) (first ++ rest) = block size i rest := by
  subst h
  rw [block, block, Nat.add_mul, Nat.one_mul, Nat.add_comm, List.drop_length_add_append]

theorem outputs_append (first rest : List (Event τ)) :
    outputs (first ++ rest) = outputs first ++ outputs rest :=
  List.filterMap_append

/-- What is neither an output nor baffling does not matter. -/
theorem sound_append_idle {size : Nat} {idle rest : List (Event τ)}
    (hclear : ∀ e ∈ idle, ¬ e.Baffles) (hnone : outputs idle = []) :
    Sound size (idle ++ rest) ↔ Sound size rest := by
  unfold Sound
  rw [outputs_append, hnone, List.nil_append, List.forall_mem_append, and_iff_right hclear]

theorem sound_cons_idle {size : Nat} {e : Event τ} (hclear : ¬ e.Baffles)
    (hnone : e.output? = none) : Sound size (e :: evs) ↔ Sound size evs := by
  rw [← List.singleton_append]
  exact sound_append_idle (by simpa using hclear) (by simp [outputs, hnone])

theorem sound_nil {size : Nat} : Sound size ([] : List (Event τ)) := by
  rw [sound_of_length_le (Nat.zero_le size)]
  exact ⟨by simp, fun _ => acceptable_nil⟩

/-- The first sample and the others. -/
theorem sound_append {size : Nat} {first rest : List (Event τ)} (hclear : ∀ e ∈ first, ¬ e.Baffles)
    (hlength : (outputs first).length = size) (haccepted : Acceptable (outputs first)) :
    Sound size (first ++ rest) ↔ Sound size rest := by
  unfold Sound
  rw [List.forall_mem_append, and_iff_right hclear, outputs_append, List.length_append, hlength]
  refine and_congr_right fun _ => ⟨fun hall i hi => ?_, fun hrest i hi => ?_⟩
  · rw [← block_append hlength]
    exact hall (i + 1) (by rw [Nat.add_mul, Nat.one_mul]; omega)
  · cases i with
    | zero =>
      rw [block, Nat.zero_mul, List.drop_zero, List.take_left' hlength]
      exact haccepted
    | succ i =>
      rw [block_append hlength]
      exact hrest i (by rw [Nat.add_mul, Nat.one_mul] at hi; omega)

theorem length_targets (pods : List (Option String)) (procs : Nat) :
    (targets pods procs).length = pods.length * procs := by
  induction pods with
  | nil => simp [targets]
  | cons pod rest ih =>
    have hcons : targets (pod :: rest) procs = List.replicate procs pod ++ targets rest procs := rfl
    rw [hcons, List.length_append, List.length_replicate, ih, List.length_cons, Nat.add_mul]
    omega

/-- Outputs that are no fault of the benchmark are not acceptable, unless they make a result. -/
theorem acceptable_iff_of_error {outs : List Document} {x : Failure}
    (h : Aggregate.ofOutputs outs = .error x) : Acceptable outs ↔ x.isBenchmark = true := by
  unfold Acceptable
  rw [h]
  cases x <;> simp [Failure.isBenchmark]

theorem acceptable_iff_of_ok {outs : List Document} {m : Metrics}
    (h : Aggregate.ofOutputs outs = .ok m) : Acceptable outs ↔ m.Nonnegative := by
  unfold Acceptable
  rw [h]
  simp

/-- What is made of the outputs of a sample when the metrics are not asked for. -/
def conclude (c : TestCase) (metadata : ClusterMetadata) (number : Nat) (outs : List Document) :
    Action τ Result := do
  let metrics ← Action.ofExcept (Aggregate.ofOutputs outs)
  let now ← Action.ask .stamp
  let result ← Action.ofExcept (Result.ofMetrics now c metadata number metrics)
  Action.log .info (sampleLine result)
  return result

theorem sample_eq (metadata : ClusterMetadata) (command : List String) (pods : List (Option String))
    (number : Nat) :
    (sample ns c metadata none command pods number : Action τ Result) = (do
      let line := " ".intercalate command
      Action.log .info s!"Running sample {number}/{c.samples}: {line}"
      runAll ns command (targets pods c.procs) >>= conclude c metadata number) := rfl

/-- Acceptable outputs make a result, or a fault of the benchmark; others make another failure. -/
theorem conclude_leaves {metadata : ClusterMetadata} {number : Nat} (hnumber : 1 ≤ number)
    {outs : List Document} {r : Except Failure Result}
    (h : (conclude c metadata number outs : Action τ Result).Leaves evs r) :
    outputs evs = [] ∧ (∀ e ∈ evs, ¬ e.Baffles) ∧
      ((∃ result, r = .ok result ∧ result.sample = number ∧ Acceptable outs) ∨
        ∃ x, r = .error x ∧ (x.isBenchmark = true ↔ Acceptable outs)) := by
  rcases Action.leaves_ofExcept_bind.mp h with ⟨x, hx, rfl, rfl⟩ | ⟨m, hm, h₁⟩
  · exact ⟨rfl, by simp, .inr ⟨x, rfl, (acceptable_iff_of_error hx).symm⟩⟩
  obtain ⟨now, time, rest, h₂, rfl⟩ := Action.leaves_ask_bind.mp h₁
  by_cases hm' : m.Nonnegative
  · rw [Result.ofMetrics_ok now c metadata hnumber hm'] at h₂
    rcases Action.leaves_ofExcept_bind.mp h₂ with ⟨_, hx, -⟩ | ⟨result, hresult, h₃⟩
    · cases hx
    obtain rfl := Except.ok.inj hresult
    obtain ⟨rest, h₄, rfl⟩ := Action.leaves_log_bind.mp h₃
    obtain ⟨rfl, rfl⟩ := Action.leaves_pure.mp h₄
    exact ⟨rfl, by simp [Event.Baffles],
      .inl ⟨_, rfl, rfl, (acceptable_iff_of_ok hm).mpr hm'⟩⟩
  · obtain ⟨issues, hinvalid⟩ := Result.ofMetrics_invalid now c metadata number hm'
    rw [hinvalid] at h₂
    rcases Action.leaves_ofExcept_bind.mp h₂ with ⟨x, hx, rfl, rfl⟩ | ⟨_, hx, -⟩
    · obtain rfl := Except.error.inj hx
      exact ⟨rfl, by simp [Event.Baffles], .inr ⟨_, rfl, by
        simp [acceptable_iff_of_ok hm, hm', Failure.isBenchmark]⟩⟩
    · cases hx

/-- **A sample ends with a result of its number**, or with a failure that is a fault of the
benchmark if the sample was sound. -/
theorem sample_leaves {metadata : ClusterMetadata} {command : List String}
    {pods : List (Option String)} {number : Nat} (hnumber : 1 ≤ number) {r : Except Failure Result}
    (h : (sample ns c metadata none command pods number : Action τ Result).Leaves evs r) :
    (∃ result, r = .ok result ∧ result.sample = number ∧ (∀ e ∈ evs, ¬ e.Baffles) ∧
        (outputs evs).length = pods.length * c.procs ∧ Acceptable (outputs evs)) ∨
      ∃ x, r = .error x ∧ (x.isBenchmark = true ↔ Sound (pods.length * c.procs) evs) := by
  rw [sample_eq] at h
  obtain ⟨rest, h₁, rfl⟩ := Action.leaves_log_bind.mp h
  rcases Action.leaves_bind.mp h₁ with ⟨x, hx, rfl⟩ | ⟨outs, first, second, houts, h₂, rfl⟩
  · -- A process failed.
    rcases runAll_leaves hx with ⟨hok, -⟩ | ⟨y, hy, hlength, hiff⟩
    · cases hok
    obtain rfl := Except.error.inj hy
    rw [length_targets] at hlength
    refine .inr ⟨x, rfl, ?_⟩
    rw [sound_cons_idle id rfl, sound_of_length_le (by omega), hiff]
    exact ⟨fun hclear => ⟨hclear, fun h => by omega⟩, And.left⟩
  · -- All of them printed a document.
    rcases runAll_leaves houts with ⟨hok, hlength, hclear⟩ | ⟨y, hy, -⟩
    rotate_left
    · cases hy
    obtain rfl := Except.ok.inj hok
    rw [length_targets] at hlength
    obtain ⟨hnone, hrest, hends⟩ := conclude_leaves hnumber h₂
    have houtputs : outputs (first ++ second) = outputs first := by
      rw [outputs_append, hnone, List.append_nil]
    have hevents : ∀ e ∈ first ++ second, ¬ e.Baffles :=
      List.forall_mem_append.mpr ⟨hclear, hrest⟩
    rcases hends with ⟨result, rfl, hnumbered, haccepted⟩ | ⟨x, rfl, hiff⟩
    · refine .inl ⟨result, rfl, hnumbered, ?_, ?_, ?_⟩
      · exact List.forall_mem_cons.mpr ⟨id, hevents⟩
      · show (outputs (first ++ second)).length = _
        rw [houtputs, hlength]
      · show Acceptable (outputs (first ++ second))
        rwa [houtputs]
    · refine .inr ⟨x, rfl, ?_⟩
      rw [sound_cons_idle id rfl, sound_of_length_le (by rw [houtputs]; omega), houtputs, hiff]
      exact ⟨fun h => ⟨hevents, fun _ => h⟩, fun h => h.2 hlength⟩

/-- How samples end that are numbered from a number on: with a result for each of them, or with a
failure that is a fault of the benchmark if all of them were sound. -/
def Sampled (size number count : Nat) (evs : List (Event τ)) (r : Except Failure (List Result)) :
    Prop :=
  (∃ results, r = .ok results ∧ results.map Result.sample = List.range' number count ∧
      Sound size evs) ∨
    ∃ x, r = .error x ∧ (x.isBenchmark = true ↔ Sound size evs)

/-- A result in front of those of the samples that are left. -/
theorem Sampled.cons {size number left : Nat} {result : Result} (hnumbered : result.sample = number)
    {later : Except Failure (List Result)} (h : Sampled size (number + 1) left evs later) :
    Sampled size number (left + 1) evs (later.map (result :: ·)) := by
  rcases h with ⟨results, rfl, hnumbers, hsound⟩ | ⟨x, rfl, hiff⟩
  · exact .inl ⟨_, rfl, by rw [List.map_cons, hnumbered, hnumbers, List.range'_succ], hsound⟩
  · exact .inr ⟨x, rfl, hiff⟩

variable [TimeScale τ]

theorem outputs_pauseBefore (c : TestCase) (left : Nat) :
    outputs (pauseBefore c left : List (Event τ)) = [] := by
  unfold pauseBefore
  split <;> rfl

theorem not_baffles_pauseBefore (c : TestCase) (left : Nat) :
    ∀ e ∈ (pauseBefore c left : List (Event τ)), ¬ e.Baffles := by
  unfold pauseBefore
  split <;> simp [Event.Baffles]

/-- **Samples end with their results**, or with a failure that is a fault of the benchmark if all of
them were sound; by induction on the samples that are left. -/
theorem samples_leaves {metadata : ClusterMetadata} {command : List String}
    {pods : List (Option String)} {number left : Nat} (hnumber : 1 ≤ number)
    {r : Except Failure (List Result)}
    (h : (samples ns c metadata none command pods number left : Action τ (List Result)).Leaves
      evs r) :
    Sampled (pods.length * c.procs) number left evs r := by
  induction left generalizing number evs r with
  | zero =>
    obtain ⟨rfl, rfl⟩ := Action.leaves_pure.mp h
    exact .inl ⟨[], rfl, rfl, sound_nil⟩
  | succ left ih =>
    rcases samples_cases h with ⟨x, hx, rfl⟩ | ⟨result, first, rest, later, hresult, hlater, rfl, rfl⟩
    · rcases sample_leaves hnumber hx with ⟨_, hok, -⟩ | ⟨y, hy, hiff⟩
      · cases hok
      · obtain rfl := Except.error.inj hy
        exact .inr ⟨x, rfl, hiff⟩
    rcases sample_leaves hnumber hresult with
      ⟨_, hok, hnumbered, hclear, hlength, haccepted⟩ | ⟨y, hy, -⟩
    rotate_left
    · cases hy
    obtain rfl := Except.ok.inj hok
    -- The first sample is sound by itself, so the whole is sound when what is left is.
    unfold Sampled
    rw [sound_append hclear hlength haccepted,
      sound_append_idle (not_baffles_pauseBefore c left) (outputs_pauseBefore c left)]
    exact (ih (by omega) hlater).cons hnumbered

/-! ### Measurements -/

omit [TimeScale τ] in
theorem workable_iff : Workable c evs ↔ Sound (c.concurrency * c.procs) evs ∧
    ((∃ e ∈ evs, e.FindsHost) → ∃ seconds, wholeSeconds c.duration = .ok seconds) :=
  ⟨fun h => ⟨⟨h.answered, h.acceptable⟩, h.finite⟩, fun h => ⟨h.1.1, h.2, h.1.2⟩⟩

theorem completes_error_iff {x : Failure} : Completes c (.error x) ↔ x.isBenchmark = true := by
  unfold Completes
  cases x <;> simp [Failure.isBenchmark]

/-- **Without metrics, a measurement ends with all its results or with a fault of the benchmark,
exactly when it is workable.** -/
theorem run_completes_iff (ns : String) (c : TestCase) (metadata : ClusterMetadata)
    (metrics : Option MetricsServer) (podMetrics : Bool)
    (hoff : podMetrics = false ∨ metrics = none)
    {evs : List (Event τ)} {r : Except Failure (List Result)}
    (h : (run ns c metadata metrics podMetrics : Action τ (List Result)).Leaves evs r) :
    Completes c r ↔ Workable c evs := by
  have hrouters : (if podMetrics then metrics else none) = none := by
    rcases hoff with rfl | rfl <;> simp
  unfold run at h
  rw [hrouters] at h
  obtain ⟨e, first, rest, he, hr, rfl⟩ := Action.leaves_attempt_bind.mp h
  obtain ⟨hnone, ⟨prepared, rfl, hlength, hclear, hseconds⟩ | ⟨x, rfl, hiff⟩⟩ := prepare_leaves he
  · rw [workable_iff, sound_append_idle hclear hnone, ← hlength]
    rcases samples_leaves (Nat.le_refl 1) hr with ⟨results, rfl, hnumbers, hsound⟩ | ⟨x, rfl, hx⟩
    · have hcount : results.length = c.samples := by
        simpa using congrArg List.length hnumbers
      exact ⟨fun _ => ⟨hsound, fun _ => hseconds⟩, fun _ => .inl ⟨results, rfl, hcount, hnumbers⟩⟩
    · rw [completes_error_iff, hx]
      exact ⟨fun hsound => ⟨hsound, fun _ => hseconds⟩, And.left⟩
  · obtain ⟨rfl, rfl⟩ := Action.leaves_throw.mp hr
    rw [completes_error_iff, hiff, List.append_nil, workable_iff,
      sound_of_length_le (by rw [hnone]; exact Nat.zero_le _), hnone]
    exact ⟨fun h => ⟨⟨h.1, fun _ => acceptable_nil⟩, h.2⟩, fun h => ⟨h.1.1, h.2⟩⟩

/-- A cluster with one client, in which every command prints the same text, and whose routes are as
told. -/
def printing (text : String) (route : Except ApiFault Document) : World Nat Unit where
  answer q s := (match q with
    | .exec _ => .ok (.text text)
    | .api (.readRoute ..) => route
    | q => Sample.reply (Ideal.answer ⟨[(Assets.clientName, 1)]⟩) q, 1, s)

/-- A route that is missing is a fault of the benchmark. -/
theorem run_completes_unrouted :
    let t := (printing "" (.error Ideal.missing)).trace 0 () (run "bench" {} {} none true).run
    t.1 = .error (.benchmark (.unprepared "(404)\nReason: Not Found\n")) ∧ Workable {} t.2 := by
  intro t
  have hfault : t.1 = .error (.benchmark (.unprepared "(404)\nReason: Not Found\n")) := by
    rfl
  exact ⟨hfault, (run_completes_iff "bench" {} {} none true (.inr rfl)
    (World.trace_leaves _ 0 () _)).mp (.inr ⟨_, hfault⟩)⟩

/-- The route of a benchmark. -/
def route : Document :=
  .object [("spec", .object [("host", .text "bench.example.com")])]

/-- **A load generator that prints no mapping ends the measurement with another failure.** -/
theorem run_not_completes :
    ¬ Completes {}
      ((printing "[]" (.ok route)).trace 0 () (run "bench" {} {} none false).run).1 := by
  obtain ⟨h₁, hurl⟩ : ∃ h₁,
      (printing "[]" (.ok route)).run (url "bench" {}).run ⟨0, false, [], ()⟩ =
        (.ok "http://bench.example.com/1024.html", h₁) := ⟨_, rfl⟩
  show ¬ Completes {} ((printing "[]" (.ok route)).run (run "bench" {} {} none false).run
    ⟨0, false, [], ()⟩).1
  unfold run
  rcases command_cases {} "http://bench.example.com/1024.html" with
    ⟨x, hseconds, hcommand⟩ | ⟨seconds, command, hseconds, hcommand⟩
  · have hprepare : (printing "[]" (.ok route)).run (prepare "bench" {}).run ⟨0, false, [], ()⟩ =
        (.error x, h₁) := by
      unfold prepare
      rw [World.run_step_ok hurl, hcommand]
      rfl
    rw [World.run_step_ok (World.run_attempt hprepare)]
    show ¬ Completes {} (.error (preparationFailure x))
    rw [completes_error_iff, wholeSeconds_error hseconds]
    exact Bool.false_ne_true
  · obtain ⟨h₂, hprepare⟩ : ∃ h₂, (printing "[]" (.ok route)).run (prepare "bench" {}).run
        ⟨0, false, [], ()⟩ = (.ok (command, [some "client-0"]), h₂) := by
      unfold prepare
      rw [World.run_step_ok hurl, hcommand]
      exact ⟨_, rfl⟩
    rw [World.run_step_ok (World.run_attempt hprepare)]
    obtain ⟨text, hfailed⟩ : ∃ text, ((printing "[]" (.ok route)).run
        (samples "bench" {} {} none command [some "client-0"] 1 1).run h₂).1 =
        .error (.part text) := ⟨_, rfl⟩
    show ¬ Completes {} ((printing "[]" (.ok route)).run
        (samples "bench" {} {} none command [some "client-0"] 1 1).run h₂).1
    rw [hfailed, completes_error_iff]
    exact Bool.false_ne_true

end Load
end IngressBench
