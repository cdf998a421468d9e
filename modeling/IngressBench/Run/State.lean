import IngressBench.Indexing.Sink
import IngressBench.Run.Team

/-!
What a run is asked to do, and how far it has come.
-/
namespace IngressBench

/-- How far a run has come. -/
inductive Phase where
  | init
  | connected
  | deployed
  | running
  | indexed
  | cleanedUp
  | done
deriving Repr, DecidableEq

def Phase.name : Phase → String
  | init => "init"
  | connected => "connected"
  | deployed => "deployed"
  | running => "running"
  | indexed => "indexed"
  | cleanedUp => "cleaned_up"
  | done => "done"

/-- What a run is asked to do. -/
structure Plan (τ : Type) where
  run : String
  cleanup : Bool
  cases : List TestCase
  settings : Settings
  limits : Limits τ
  team : Team τ

/-- The state of a run. -/
structure RunState where
  phase : Phase := .init
  /-- Whether the namespace was there before the run. -/
  existed : Bool := false
  /-- The tuning profile that was applied last. -/
  tuning : String := ""
  torndown : Bool := false
  /-- Whether no comparison has failed. -/
  passed : Bool := true
  session : Option Session := none
  sink : Option Sink := none

end IngressBench
