import IngressBench.Cluster.Metadata
import IngressBench.Moment.Reading
import IngressBench.TestCase

/-!
Results: what one sample of a test case measured, with the test case and the cluster it was
measured on. A result is checked like every record: counts and times are at least zero, and samples
are numbered from one.
-/
namespace IngressBench

/-- What a sample measured, in quantities of a type. Latencies are in microseconds. -/
structure Measures (α : Type) where
  requests : Int
  rps : α
  avgLatency : α
  maxLatency : α
  p90Latency : α
  p95Latency : α
  p99Latency : α
  httpErrors : Int
  timeouts : Int
deriving Inhabited, DecidableEq

/-- What a sample measured. -/
abbrev Metrics := Measures Float

/-- The measurements with their names. -/
def Measures.fields (m : Metrics) : Record.Fields :=
  [("requests", .int m.requests), ("rps", .real m.rps), ("avg_lat_us", .real m.avgLatency),
    ("max_lat_us", .real m.maxLatency), ("p90_lat_us", .real m.p90Latency),
    ("p95_lat_us", .real m.p95Latency), ("p99_lat_us", .real m.p99Latency),
    ("http_errors", .int m.httpErrors), ("timeouts", .int m.timeouts)]

/-- The result of one sample. -/
structure Result where
  uuid : String
  sample : Nat
  timestamp : Moment
  config : TestCase
  metadata : ClusterMetadata
  metrics : Metrics
  routerCpu : Option Float := none
deriving Inhabited

namespace Result

open Record

/-- A number of at least zero. -/
def asMeasure (d : Document) : Except Cause Float := do
  nonnegative (← asNumber d)

/-- The measurements among named values. -/
def metricsIntake (fields : Fields) : Intake Metrics := do
  let requests ← optional fields "requests" 0 (atLeast 0)
  let rps ← optional fields "rps" 0.0 asMeasure
  let avgLatency ← optional fields "avg_lat_us" 0.0 asMeasure
  let maxLatency ← optional fields "max_lat_us" 0.0 asMeasure
  let p90Latency ← optional fields "p90_lat_us" 0.0 asMeasure
  let p95Latency ← optional fields "p95_lat_us" 0.0 asMeasure
  let p99Latency ← optional fields "p99_lat_us" 0.0 asMeasure
  let httpErrors ← optional fields "http_errors" 0 (atLeast 0)
  let timeouts ← optional fields "timeouts" 0 (atLeast 0)
  return {
    requests, rps, avgLatency, maxLatency, p90Latency, p95Latency, p99Latency, httpErrors
    timeouts }

/-- The result of a test case from named values; `now` is the time of its creation. The test case
and the cluster are read by steps of their own. -/
def intakeWith (now : Moment) (config : Intake TestCase) (metadata : Intake ClusterMetadata)
    (fields : Fields) : Intake Result := do
  let uuid ← required fields "uuid" "" asText
  let sample ← required fields "sample" 1 TestCase.asCount
  let timestamp ← optional fields "timestamp" now Moment.ofDocument
  let config ← config
  let metadata ← metadata
  let metrics ← metricsIntake fields
  let routerCpu ← optional fields "router_cpu" none (orNothing asNumber)
  return { uuid, sample, timestamp, config, metadata, metrics, routerCpu }

/-- A record under a name, which has to be given. -/
def requiredRecord {α : Type} (fields : Fields) (title name : String) (default : α)
    (read : Fields → Intake α) : Intake α :=
  match List.lookup name fields with
  | none => do
    note name .missing
    return default
  | some d => nested title name default d read

/-- A result from named values. -/
def ofFields (now : Moment) (fields : Fields) : Except Failure Result :=
  finish "Result" <| intakeWith now
    (requiredRecord fields "TestCaseConfig" "config" {} TestCase.intake)
    (requiredRecord fields "ClusterMetadata" "metadata" {} ClusterMetadata.intake) fields

/-- The result of a sample of a test case with what it measured. -/
def ofMetrics (now : Moment) (config : TestCase) (metadata : ClusterMetadata) (sample : Nat)
    (metrics : Metrics) : Except Failure Result :=
  finish "Result" <| intakeWith now (return config) (return metadata)
    ([("uuid", .text config.uuid), ("sample", .int sample)] ++ metrics.fields)

/-- The document that indexers store. -/
def document (r : Result) : Document :=
  .object ([("uuid", .text r.uuid), ("sample", .int r.sample),
      ("timestamp", .text r.timestamp.text), ("config", r.config.document),
      ("metadata", r.metadata.document)] ++ r.metrics.fields ++
    [("router_cpu", match r.routerCpu with | some x => .real x | none => .null)])

end Result
end IngressBench
