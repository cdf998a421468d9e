import IngressBench.Benchmark.Command
import IngressBench.Document.Use
import IngressBench.Result

/-!
Combining what several processes measured at the same time: counts and rates add up, the average
latency is the mean of the averages, and of the other latencies the greatest counts. A measurement
that an output lacks is zero.
-/
namespace IngressBench

/-- Quantities that can be combined. -/
class Quantity (α : Type) where
  zero : α
  add : α → α → α
  less : α → α → Bool
  /-- An equal share for each of so many. -/
  share : α → Nat → α
  /-- The whole part. -/
  whole : α → Except Failure Int

instance : Quantity Float where
  zero := 0.0
  add := (· + ·)
  less a b := a < b
  share a n := a / n.toFloat
  whole := wholeSeconds

namespace Aggregate

variable {α ω : Type} [Quantity α]

/-- All quantities together. -/
def total (xs : List α) : α :=
  xs.foldl Quantity.add Quantity.zero

/-- The greatest quantity, the first one of several that are not less than each other. -/
def peak : List α → α
  | [] => Quantity.zero
  | x :: xs => xs.foldl (fun m y => if Quantity.less m y then y else m) x

/-- One quantity of every output. -/
def column (read : ω → String → Except Failure α) (name : String) :
    List ω → Except Failure (List α)
  | [] => .ok []
  | o :: rest => do
    let x ← read o name
    return x :: (← column read name rest)

/-- The measurements of all outputs together; `read` gives a quantity of an output by its name. -/
def measures (read : ω → String → Except Failure α) (outputs : List ω) :
    Except Failure (Measures α) := do
  if outputs.isEmpty then throw (.benchmark .noOutput)
  let totalOf (name : String) := (column read name outputs).map total
  let peakOf (name : String) := (column read name outputs).map peak
  return {
    requests := ← Quantity.whole (← totalOf "requests")
    rps := ← totalOf "rps"
    avgLatency := Quantity.share (← totalOf "avg_lat_us") outputs.length
    maxLatency := ← peakOf "max_lat_us"
    p90Latency := ← peakOf "p90_lat_us"
    p95Latency := ← peakOf "p95_lat_us"
    p99Latency := ← peakOf "p99_lat_us"
    httpErrors := ← Quantity.whole (← totalOf "http_errors")
    timeouts := ← Quantity.whole (← totalOf "timeouts") }

/-- A quantity in the output of a load generator. -/
def quantityOf (output : Document) (name : String) : Except Failure Float := do
  ((← output.lookUp name).getD (.int 0)).toFloat

/-- The measurements of the outputs of load generators. -/
def ofOutputs (outputs : List Document) : Except Failure Metrics :=
  measures quantityOf outputs

end Aggregate
end IngressBench
