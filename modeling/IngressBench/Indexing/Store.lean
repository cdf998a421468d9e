import IngressBench.Indexing.Directory
import IngressBench.Record.Intake

/-!
Where documents are stored: in a directory, by a search server, or wherever the surroundings put
them.
-/
namespace IngressBench

/-- A place for documents. -/
inductive Store where
  | directory (path : String)
  | search (servers : List String) (index : String)
  | outside
deriving Repr, DecidableEq

namespace Store

variable {τ : Type}

/-- The label of documents among named values. -/
def labelOf (fields : Record.Fields) : Except Failure (Option String) :=
  Record.finish "IndexingOptions"
    (Record.optional fields "metric_name" none (Record.orNothing Record.asText))

/-- Sends documents to a search server, and tells how many it stored. -/
def send (index : String) (documents : List Document) : Action τ String := do
  match ← Action.ask (.bulk index documents) with
  | .stored count => return s!"Indexed {count.plain} documents in {index}"
  | .refused count => throw (.indexing (.documents count index))
  | .failed failure => throw (.indexing (.bulk index failure.message))

/-- Stores documents, and tells how it went. -/
def put (store : Store) (label : Option String) (documents : Document) : Action τ String := do
  match store with
  | .directory path => Directory.store path label documents
  | .search _ index => send index (← Action.ofExcept documents.each)
  | .outside =>
    match ← Action.ask (.index documents label) with
    | .ok status => return status.plain
    | .error failure => throw failure

end Store
end IngressBench
