import IngressBench.Cluster.Discovery
import IngressBench.Deploy
import IngressBench.Keeping
import IngressBench.Reconcile
import IngressBench.Run.State
import IngressBench.Teardown

/-!
The course of a run: connecting, deploying the objects of the benchmark, one test case after the
other, storing the results, and cleaning up. The first step that fails ends the run; what was reached
stays in its state.
-/
namespace IngressBench.Plan

variable {τ : Type} [TimeScale τ]

/-- A step of a run. -/
abbrev Stage (τ α : Type) := Keeping RunState τ α

/-- Reaches a phase. -/
def reach (phase : Phase) : Stage τ Unit :=
  modify fun s => { s with phase }

/-- A step of the sink, if there is one. -/
def withSink (step : Keeping Sink τ Unit) : Stage τ Unit :=
  Keeping.ofProgram fun s =>
    match s.sink with
    | none => return (.ok (), s)
    | some sink => do
      let (outcome, sink) ← step.perform sink
      return (outcome, { s with sink := some sink })

/-! ### Connecting -/

/-- The session of the run; the first start makes it. -/
def session (p : Plan τ) : Stage τ Session := do
  match (← get).session with
  | some session => return session
  | none => do
    let session ← Keeping.lift p.team.connect
    modify fun s => { s with session := some session }
    return session

/-- The identity of the cluster with the version of its load balancer, when that can be told. -/
def withBalancer (m : ClusterMetadata) : Action τ ClusterMetadata := do
  match ← Action.attempt Discovery.loadBalancerVersion with
  | .ok version => do
    Action.log .info s!"HAProxy version: {version}"
    return { m with haproxyVersion := some version }
  | .error failure => do
    Action.log .error s!"Couldn't fetch haproxy version: {failure.message}"
    return m

/-- Learns about the cluster. -/
def connect (p : Plan τ) : Stage τ (ClusterMetadata × MetricsServer) := do
  let session ← p.session
  let metadata ← Keeping.lift Discovery.metadata
  let metrics ← Keeping.lift (Discovery.metricsServer session p.settings)
  let metadata ← Keeping.lift (withBalancer metadata)
  reach .connected
  return (metadata, metrics)

/-! ### Test cases -/

/-- Applies the tuning profile of a test case, unless it is applied already. -/
def tune (p : Plan τ) (c : TestCase) : Stage τ Unit := do
  if !c.tuning.isEmpty && c.tuning != (← get).tuning then
    Keeping.lift (p.team.tune c.tuning)
    modify fun s => { s with tuning := c.tuning }

/-- Compares results, if there is somebody to do it. -/
def compare (p : Plan τ) (c : TestCase) (results : List Result) : Stage τ Unit := do
  if let some comparator := p.team.compare then
    if !(← Keeping.lift (comparator c results)) then
      Keeping.lift
        (Action.log .error s!"Benchmark comparison failed for test case with uuid {c.uuid}")
      modify fun s => { s with passed := false }

/-- Runs a test case. The results of a warm-up are dropped. -/
def runCase (p : Plan τ) (metadata : ClusterMetadata) (metrics : MetricsServer) (c : TestCase) :
    Stage τ Unit := do
  Keeping.lift (reconcile p.limits.pace p.limits.readiness p.settings.ns c.serverReplicas
    c.concurrency)
  p.tune c
  let results ← Keeping.lift (p.team.drive c metadata (some metrics) p.settings.podMetrics)
  if c.warmup then
    Keeping.lift (Action.log .info "Warmup test case, results are not indexed")
  else
    p.compare c results
    withSink (Sink.accept (results.map some))

/-- What the log tells about a test case. -/
def caseLine (c : TestCase) : String :=
  s!"Tool:{c.toolText} termination:{c.terminationText} servers:{c.serverReplicas} " ++
    s!"concurrency:{c.concurrency} procs:{c.procs} connections:{c.connections} " ++
    s!"duration:{floatText c.duration}s"

/-- Runs test cases in order, the first of which has the given number. -/
def runCases (p : Plan τ) (metadata : ClusterMetadata) (metrics : MetricsServer) :
    Nat → List TestCase → Stage τ Unit
  | _, [] => return
  | number, c :: rest => do
    let c := c.forRun p.run
    Keeping.lift (Action.log .info s!"Running test {number}/{p.cases.length}")
    Keeping.lift (Action.log .info (caseLine c))
    p.runCase metadata metrics c
    p.runCases metadata metrics (number + 1) rest

/-! ### The whole course -/

/-- Deploys the objects of the benchmark. -/
def deployAssets (p : Plan τ) : Stage τ Unit := do
  let existed ← Keeping.lift (deploy p.settings.ns)
  modify fun s => { s with existed }
  reach .deployed

/-- Removes the objects of the benchmark, at most once in a run. -/
def teardown (p : Plan τ) : Stage τ Unit := do
  let s ← get
  if s.torndown then return
  modify fun s => { s with torndown := true }
  match s.session with
  | some _ => Keeping.lift (removeAssets p.limits.pace p.limits.cleanup s.existed p.settings.ns)
  | none => do
    Keeping.lift (Action.log .info "Cleaning up resources")
    throw (absentPart (if s.existed then "apps" else "core"))

/-- Stores what is left, and cleans up if that is asked for. -/
def wrapUp (p : Plan τ) : Stage τ Unit := do
  withSink Sink.close
  reach .indexed
  if p.cleanup then
    p.teardown
    reach .cleanedUp
  reach .done
  if !(← get).passed then throw .comparison

/-- Runs every test case. -/
def start (p : Plan τ) : Stage τ Unit := do
  let (metadata, metrics) ← p.connect
  p.deployAssets
  reach .running
  p.runCases metadata metrics 1 p.cases
  p.wrapUp

end IngressBench.Plan
