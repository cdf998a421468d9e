import IngressBench.Benchmark.Aggregate
import IngressBench.Cluster.Assets
import IngressBench.Cluster.Discovery
import IngressBench.Time

/-!
Measuring a test case: in every sample each client pod runs the load generator, several processes in
a row, and what they measured is combined into one result. The first process that fails ends the
measurement.
-/
namespace IngressBench.Load

variable {τ : Type} [TimeScale τ]

/-! ### Preparation -/

/-- The scheme of a route's address. -/
def scheme : Termination → String
  | .http => "http"
  | _ => "https"

/-- The address that a test case sends its load to. -/
def url (ns : String) (c : TestCase) : Action τ String := do
  let route ← Action.apiOrFail (.readRoute ns (Assets.routeName c.termination))
  let host ← Action.ofExcept (Discovery.hostOf route)
  return scheme c.termination ++ "://" ++ host.plain ++ c.path

/-- The name of a pod. -/
def podName (p : Pod) : Except Failure (Option String) := do
  return (← present "name" p.metadata).name

/-- The client pods that a test case uses; fewer than it asks for are a fault. -/
def clientPods (ns : String) (expected : Nat) : Action τ (List (Option String)) := do
  let pods ← Action.apiOrFail (.listPods ns ("app=" ++ Assets.clientName) "Running")
  let names ← Action.ofExcept do (← Listing.all pods).mapM podName
  if names.length < expected then throw (.benchmark (.pods expected names.length))
  return names.take expected

/-- The command line of a test case and the pods that run it. -/
def prepare (ns : String) (c : TestCase) : Action τ (List String × List (Option String)) := do
  let address ← url ns c
  let command ← Action.ofExcept (c.command address)
  return (command, ← clientPods ns c.concurrency)

/-- The failure of a preparation. -/
def preparationFailure (failure : Failure) : Failure :=
  match failure with
  | .key _ | .rejected .. => .benchmark (.unprepared failure.message)
  | _ => failure

/-! ### Samples -/

/-- The name of a pod in sentences. -/
def podText (pod : Option String) : String :=
  pod.getD "None"

/-- The document that a load generator printed. -/
def outputOf (pod : Option String) (output : Document) : Except Failure Document :=
  match output with
  | .text s => (Json.read s).mapError fun cause => .benchmark (.output (podText pod) cause)
  | d => .error (.benchmark (.output (podText pod)
      s!"the JSON object must be str, bytes or bytearray, not {d.shortKind}"))

/-- Runs a command in a pod. -/
def runIn (ns : String) (command : List String) (pod : Option String) : Action τ Document := do
  match ← Action.ask (.exec { pod, ns, command, withErrors := false }) with
  | .ok output => Action.ofExcept (outputOf pod output)
  | .error (.rejected _ reason) => throw (.benchmark (.exec (podText pod) reason))
  | .error (.unreachable text) => throw (.unreachable text)

/-- Runs a command in one pod after another. -/
def runAll (ns : String) (command : List String) : List (Option String) → Action τ (List Document)
  | [] => return []
  | pod :: rest => do
    let output ← runIn ns command pod
    return output :: (← runAll ns command rest)

/-- The pod of every process, all processes of a pod in a row. -/
def targets (pods : List (Option String)) (procs : Nat) : List (Option String) :=
  pods.flatMap fun pod => List.replicate procs pod

/-- The query for the processor time that the routers used in the last seconds. -/
def routerQuery (seconds : Int) : String :=
  "sum(rate(container_cpu_usage_seconds_total\x7bnamespace=\"" ++ routerNamespace ++
    "\",container=\"router\"\x7d[" ++ toString seconds ++ "s]))"

/-- Whether a failure of the metrics server only costs the metrics. -/
def isTolerated : Failure → Bool
  | .http _ | .runtime _ | .key _ | .value _ => true
  | _ => false

/-- The processor time of the routers, nothing when it cannot be told. -/
def routerCpu (server : MetricsServer) (c : TestCase) : Action τ (Option Float) := do
  let query : Action τ (Option Float) := do
    server.queryScalar (routerQuery (← Action.ofExcept (wholeSeconds c.duration)))
  match ← Action.attempt query with
  | .ok x => return x
  | .error failure => do
    if !isTolerated failure then throw failure
    Action.log .warning s!"Could not fetch router CPU usage: {failure.message}"
    return none

/-- Where the processor time of the routers is asked for, if it is. -/
abbrev Routers := Option MetricsServer

/-- The line of the log about a sample. -/
def sampleLine (r : Result) : String :=
  s!"Sample {r.sample}: rps={fixedText 2 r.metrics.rps} " ++
    s!"avg_lat_us={fixedText 0 r.metrics.avgLatency} " ++
    s!"p99_lat_us={fixedText 0 r.metrics.p99Latency} http_errors={r.metrics.httpErrors}"

/-- Measures one sample. -/
def sample (ns : String) (c : TestCase) (metadata : ClusterMetadata) (routers : Routers)
    (command : List String) (pods : List (Option String)) (number : Nat) : Action τ Result := do
  let line := " ".intercalate command
  Action.log .info s!"Running sample {number}/{c.samples}: {line}"
  let outputs ← runAll ns command (targets pods c.procs)
  let metrics ← Action.ofExcept (Aggregate.ofOutputs outputs)
  let now ← Action.ask .stamp
  let result ← Action.ofExcept (Result.ofMetrics now c metadata number metrics)
  let result ← match routers with
    | some server => do
      let cpu ← routerCpu server c
      pure { result with routerCpu := cpu }
    | none => pure result
  Action.log .info (sampleLine result)
  return result

/-- Measures `left` samples, the first of which has the given number; between two samples the test
case may ask for a delay. -/
def samples (ns : String) (c : TestCase) (metadata : ClusterMetadata) (routers : Routers)
    (command : List String) (pods : List (Option String)) :
    (number left : Nat) → Action τ (List Result)
  | _, 0 => return []
  | number, left + 1 => do
    let result ← sample ns c metadata routers command pods number
    if c.delay != 0 && left != 0 then Action.sleep (TimeScale.ofSeconds c.delay)
    return result :: (← samples ns c metadata routers command pods (number + 1) left)

/-- Measures a test case. -/
def run (ns : String) (c : TestCase) (metadata : ClusterMetadata)
    (metrics : Option MetricsServer) (podMetrics : Bool) : Action τ (List Result) := do
  match ← Action.attempt (prepare ns c) with
  | .error failure => throw (preparationFailure failure)
  | .ok (command, pods) =>
    samples ns c metadata (if podMetrics then metrics else none) command pods 1 c.samples

end IngressBench.Load
