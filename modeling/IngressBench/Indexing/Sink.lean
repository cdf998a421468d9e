import IngressBench.Indexing.Address
import IngressBench.Indexing.Store
import IngressBench.Keeping
import IngressBench.Result
import IngressBench.Settings

/-!
Sinks take the results of a run. A streaming sink stores the results of every test case at once; a
batch sink keeps them and stores them all when it is closed, with the name of the run as their label.
Documents that cannot be stored are told in the log and are gone; the run goes on.
-/
namespace IngressBench

/-- When a sink stores its documents. -/
inductive Cadence where
  | streaming
  | batch (run : String)
deriving Repr, DecidableEq

/-- A sink with the documents that it keeps. -/
structure Sink where
  cadence : Cadence
  store : Store
  buffer : List Document := []

namespace Sink

variable {τ : Type}

/-- Stores documents, and tells whether that succeeded. -/
def deliver (store : Store) (label : Option String) (documents : List Document) :
    Action τ Bool := do
  match ← Action.attempt (store.put label (.list documents)) with
  | .ok status => do
    Action.log .info status
    return true
  | .error (.indexing fault) => do
    Action.log .error s!"Indexing error: {fault.message}"
    return false
  | .error failure => throw failure

/-- Stores the documents that a sink keeps, and tells whether that succeeded; the sink keeps them no
longer. -/
def flush (label : Option String) : Keeping Sink τ Bool := do
  let s ← get
  set { s with buffer := [] }
  Keeping.lift (deliver s.store label s.buffer)

/-- The documents of results up to the first one that is missing, and whether none is. -/
def documentsOf : List (Option Result) → List Document × Bool
  | [] => ([], true)
  | none :: _ => ([], false)
  | some r :: rest =>
    let (documents, complete) := documentsOf rest
    (r.document :: documents, complete)

/-- The failure of a result that is missing. -/
def missingResult : Failure :=
  .part "'NoneType' object has no attribute 'to_document'"

/-- Takes results; a missing one ends the step. -/
def accept (results : List (Option Result)) : Keeping Sink τ Unit := do
  let s ← get
  let (documents, complete) := documentsOf results
  set { s with buffer := s.buffer ++ documents }
  if !complete then throw missingResult
  match s.cadence with
  | .streaming => discard (flush none)
  | .batch _ => return

/-- Stores what is left at the end of a run. -/
def close : Keeping Sink τ Unit := do
  let s ← get
  match s.cadence with
  | .streaming => if !s.buffer.isEmpty then discard (flush none)
  | .batch run => discard (flush (some run))

/-! ### Choosing a sink -/

/-- A sink of a search server. -/
def ofServer (settings : Settings) (server : String) : Action τ Sink := do
  Action.log .info s!"Creating elastic indexer for {settings.searchIndex}"
  if !Address.isComplete server then throw (.config (.searchServer server Address.refusal))
  return { cadence := .streaming, store := .search [server] settings.searchIndex }

/-- A sink of a directory, which is made if it is missing. -/
def ofDirectory (path run : String) : Action τ Sink := do
  Action.log .info s!"Creating local indexer in {path}"
  match ← Action.attempt (Directory.make path) with
  | .ok () => return { cadence := .batch run, store := .directory path }
  | .error (.indexing fault) => throw (.config (.said fault.message))
  | .error failure => throw failure

/-- The sink that settings ask for, if any. -/
def ofSettings (settings : Settings) (run : String) : Action τ (Option Sink) := do
  match settings.searchServer.filter fun s => !s.isEmpty, settings.resultsDir with
  | some server, _ => return some (← ofServer settings server)
  | none, some path => return some (← ofDirectory path run)
  | none, none => return none

end Sink
end IngressBench
