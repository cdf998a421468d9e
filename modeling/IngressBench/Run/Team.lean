import IngressBench.Benchmark.Load
import IngressBench.Tuning.Apply

/-!
Who does the work of a run: how the cluster is reached, who measures a test case, who applies a tuning
profile, and who compares results with earlier ones. A run has helpers of its own, and each of them
can be replaced by one of the surroundings.
-/
namespace IngressBench

/-- The times of a run: the pause between two looks at a deployment, and how long each wait may
take. -/
structure Limits (τ : Type) where
  interval : τ
  readiness : τ
  cleanup : τ
  tuning : τ

/-- The times of settings. -/
def Limits.ofSettings {τ : Type} [TimeScale τ] (s : Settings) : Limits τ where
  interval := TimeScale.ofSeconds s.pollInterval
  readiness := TimeScale.ofSeconds s.readinessTimeout
  cleanup := TimeScale.ofSeconds s.cleanupTimeout
  tuning := TimeScale.ofSeconds s.tuningTimeout

/-- The pace of every wait of a run: the stop of the run ends it. -/
def Limits.pace {τ : Type} (l : Limits τ) : Pace τ :=
  ⟨l.interval, true⟩

/-- Measures a test case on a cluster, with its metrics server and whether that is to be asked for
the routers' metrics. -/
abbrev Driver (τ : Type) :=
  TestCase → ClusterMetadata → Option MetricsServer → Bool → Action τ (List Result)

/-- Tells whether results are as good as earlier ones. -/
abbrev Comparator (τ : Type) := TestCase → List Result → Action τ Bool

/-- The helpers of a run. -/
structure Team (τ : Type) where
  connect : Action τ Session
  drive : Driver τ
  tune : String → Action τ Unit
  compare : Option (Comparator τ) := none

/-! ### Helpers of the surroundings -/

namespace Outside

variable {τ : Type}

/-- A connection of the surroundings. -/
def connect (ns : String) : Action τ Session := do
  match ← Action.ask (.connect ns) with
  | .ok keys => return { keys }
  | .error failure => throw failure

/-- A driver of the surroundings. -/
def drive : Driver τ := fun case metadata _ podMetrics => do
  match ← Action.ask (.drive case metadata podMetrics) with
  | .ok results => return results
  | .error failure => throw failure

/-- A tuner of the surroundings. -/
def tune (profile : String) : Action τ Unit := do
  match ← Action.ask (.tune profile) with
  | .ok () => return
  | .error failure => throw failure

/-- A comparator of the surroundings. -/
def compare : Comparator τ := fun case results => do
  match ← Action.ask (.compare case results) with
  | .ok verdict => return verdict
  | .error failure => throw failure

end Outside

/-- The helpers that a run has of its own; it compares nothing. -/
def Team.own {τ : Type} [TimeScale τ] (env : Environment) (settings : Settings)
    (limits : Limits τ) : Team τ where
  connect := Session.connect env settings
  drive := Load.run settings.ns
  tune := Tuning.apply limits.pace limits.tuning

end IngressBench
