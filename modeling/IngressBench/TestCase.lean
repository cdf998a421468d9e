import IngressBench.Duration
import IngressBench.Record.Intake

/-!
Test cases: which load is sent through which kind of route, from how many clients to how many
servers, and how often it is measured. A test case is read from named values; two of the names have
a second spelling, which wins when both are given.
-/
namespace IngressBench

/-- A load generator. -/
inductive Tool where
  | wrk
  | hloader
deriving Repr, DecidableEq, Inhabited

def Tool.name : Tool → String
  | wrk => "wrk"
  | hloader => "hloader"

def Tool.all : List Tool := [.wrk, .hloader]

/-- Where the encryption of a route ends. -/
inductive Termination where
  | http
  | edge
  | passthrough
  | reencrypt
deriving Repr, DecidableEq, Inhabited

def Termination.name : Termination → String
  | http => "http"
  | edge => "edge"
  | passthrough => "passthrough"
  | reencrypt => "reencrypt"

def Termination.all : List Termination := [.http, .edge, .passthrough, .reencrypt]

/-- The termination that a value names. -/
def Termination.ofDocument (d : Document) : Except Failure Termination :=
  match d.text?.bind fun s => all.find? fun t => t.name = s with
  | some t => .ok t
  | none => .error (.value s!"{d.shown} is not a valid Termination")

/-- A test case. `given` holds the names of the fields that were not left at their defaults. -/
structure TestCase where
  uuid : String := ""
  tool : Tool := .wrk
  termination : Termination := .http
  samples : Nat := 1
  duration : Float := 30.0
  path : String := "/1024.html"
  concurrency : Nat := 1
  procs : Nat := 1
  connections : Nat := 10
  serverReplicas : Nat := 1
  requestTimeout : Float := 1.0
  delay : Float := 0.0
  keepalive : Bool := true
  warmup : Bool := false
  tuning : String := ""
  given : List String := []
deriving Inhabited

namespace TestCase

open Record

/-! ### Reading -/

/-- A whole number of at least one. -/
def asCount (d : Document) : Except Cause Nat :=
  (atLeast 1 d).map Int.toNat

/-- The spellings of a field, the one that wins first. -/
def spellings (name : String) : List String :=
  match name with
  | "server_replicas" => ["serverReplicas", "server_replicas"]
  | "request_timeout" => ["requestTimeout", "request_timeout"]
  | _ => [name]

/-- The names of all fields, in order. -/
def names : List String :=
  ["uuid", "tool", "termination", "samples", "duration", "path", "concurrency", "procs",
    "connections", "server_replicas", "request_timeout", "delay", "keepalive", "warmup", "tuning"]

/-- A field that holds a duration within a bound. -/
def durationField (fields : Fields) (name : String) (default : Float)
    (bound : Float → Except Cause Float) : Intake Float :=
  match given? fields (spellings name) with
  | none => return default
  | some (key, d) =>
    match Duration.ofDocument d with
    | .error (.invalid shown) => do
      note key (.rule (Duration.Fault.invalid shown).message)
      return default
    | .error fault => throw fault.failure
    | .ok x =>
      match bound x with
      | .ok x => return x
      | .error cause => do
        note key cause
        return default

/-- The name of a tuning profile; nothing stands for no profile. -/
def asTuning (d : Document) : Except Cause String :=
  match d with
  | .null => .ok ""
  | d => asText d

/-- A test case from named values. -/
def intake (fields : Fields) : Intake TestCase := do
  let uuid ← optional fields "uuid" "" asText
  let tool ← optional fields "tool" .wrk (asChoice (Tool.all.map fun t => (t.name, t)))
  let termination ← optional fields "termination" .http
    (asChoice (Termination.all.map fun t => (t.name, t)))
  let samples ← optional fields "samples" 1 asCount
  let duration ← durationField fields "duration" 30.0 positive
  let path ← optional fields "path" "/1024.html" asText
  let concurrency ← optional fields "concurrency" 1 asCount
  let procs ← optional fields "procs" 1 asCount
  let connections ← optional fields "connections" 10 asCount
  let serverReplicas ← optionalBy fields (spellings "server_replicas") 1 asCount
  let requestTimeout ← durationField fields "request_timeout" 1.0 positive
  let delay ← durationField fields "delay" 0.0 nonnegative
  let keepalive ← optional fields "keepalive" true asTruth
  let warmup ← optional fields "warmup" false asTruth
  let tuning ← optional fields "tuning" "" asTuning
  let given := names.filter fun name => (given? fields (spellings name)).isSome
  return {
    uuid, tool, termination, samples, duration, path, concurrency, procs, connections
    serverReplicas, requestTimeout, delay, keepalive, warmup, tuning, given }

/-- The test case of named values, if all of them are accepted. -/
def ofFields (fields : Fields) : Except Failure TestCase :=
  finish "TestCaseConfig" (intake fields)

/-- A test case does not change: setting a field is refused. -/
def assign (name : String) : Failure :=
  .invalid "TestCaseConfig" [.at name .frozen]

/-! ### Writing -/

/-- The fields with their values. -/
def fields (c : TestCase) : Fields :=
  [("uuid", .text c.uuid), ("tool", .text c.tool.name), ("termination", .text c.termination.name),
    ("samples", .int c.samples), ("duration", .real c.duration), ("path", .text c.path),
    ("concurrency", .int c.concurrency), ("procs", .int c.procs),
    ("connections", .int c.connections), ("server_replicas", .int c.serverReplicas),
    ("request_timeout", .real c.requestTimeout), ("delay", .real c.delay),
    ("keepalive", .bool c.keepalive), ("warmup", .bool c.warmup), ("tuning", .text c.tuning)]

/-- A test case as a document. -/
def document (c : TestCase) : Document :=
  .object c.fields

/-- The winning spelling of a field. -/
def preferred (name : String) : String :=
  (spellings name).headD name

/-- The tool as log lines show it. -/
def toolText (c : TestCase) : String :=
  if c.given.contains "tool" then c.tool.name else "Tool.WRK"

/-- The termination as log lines show it. -/
def terminationText (c : TestCase) : String :=
  if c.given.contains "termination" then c.termination.name else "Termination.HTTP"

/-! ### Copies -/

/-- A copy of the fields with some values replaced, whatever the values are, and the names that
count as given afterwards. -/
def overlaid (c : TestCase) (updates : Fields) : Fields × List String :=
  (c.fields.map fun (name, d) => (name, (List.lookup name updates).getD d),
    c.given ++ (updates.map Prod.fst).filter (!c.given.contains ·))

/-- A copy that belongs to a run. -/
def forRun (c : TestCase) (run : String) : TestCase :=
  { c with uuid := run, given := if c.given.contains "uuid" then c.given else "uuid" :: c.given }

/-- `c'` is `c` under the name of a run. -/
structure CopyFor (run : String) (c c' : TestCase) : Prop where
  uuid : c'.uuid = run
  /-- Every other field is as it was, -/
  others : { c' with uuid := c.uuid, given := c.given } = c
  /-- and counts as given if it did. -/
  given : ∀ name, name ∈ c'.given ↔ name ∈ c.given ∨ name = "uuid"

theorem copyFor_forRun (run : String) (c : TestCase) : CopyFor run c (c.forRun run) where
  uuid := rfl
  others := rfl
  given name := by
    unfold forRun
    by_cases hgiven : c.given.contains "uuid" = true
    · rw [if_pos hgiven]
      refine (or_iff_left_of_imp fun hname => ?_).symm
      rw [hname]
      exact List.contains_iff_mem.mp hgiven
    · rw [if_neg hgiven, List.mem_cons, or_comm]

end TestCase
end IngressBench
