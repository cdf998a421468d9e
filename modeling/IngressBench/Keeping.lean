import IngressBench.Program

/-!
Steps that keep a state: what a step changed stays changed when the step fails.
-/
namespace IngressBench

/-- A step that can fail and keeps a state. -/
abbrev Keeping (σ τ α : Type) := ExceptT Failure (StateT σ (Program τ)) α

namespace Keeping

variable {σ τ α : Type}

/-- A step that does not touch the state. -/
def lift (a : Action τ α) : Keeping σ τ α :=
  ExceptT.mk (StateT.lift a.run)

/-- What a step ends with, and the state after it. -/
def perform (step : Keeping σ τ α) (s : σ) : Program τ (Except Failure α × σ) :=
  step.run.run s

/-- A step of which the state is known. -/
def ofProgram (p : σ → Program τ (Except Failure α × σ)) : Keeping σ τ α :=
  ExceptT.mk (StateT.mk p)

end Keeping
end IngressBench
