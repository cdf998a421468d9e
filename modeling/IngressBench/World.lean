import IngressBench.Program
import IngressBench.Time

/-!
Worlds: surroundings that answer every question of a program, each answer at a cost of time. A
program that runs in a world leaves a history: the time, whether the run was stopped, and the events,
each with the reply that came with it.
-/
namespace IngressBench

/-- What happened at one step of a program. -/
inductive Event (τ : Type) where
  | slept (time : τ)
  | stopped
  | logged (level : Level) (text : String)
  /-- A question, its reply, and the time at which it was asked. -/
  | asked (question : Question) (reply : question.Reply) (time : τ)

/-- Surroundings with a state. -/
structure World (τ σ : Type) where
  /-- The reply to a question, its cost, and the state afterwards. -/
  answer : (q : Question) → σ → q.Reply × τ × σ
  /-- The time at which the run is stopped, if it is. -/
  stopAt : Option τ := none
  /-- What is logged when the run is stopped. -/
  notice : List (Level × String) := []

/-- The course of a program so far; the latest event comes first. -/
structure History (τ σ : Type) where
  now : τ
  stopped : Bool := false
  events : List (Event τ) := []
  state : σ

namespace World

variable {τ σ α : Type} [TimeScale τ]

/-- Stops the run. -/
def stop (h : History τ σ) : History τ σ :=
  { h with stopped := true }

/-- Stops the run at a time, if the time comes during a pause of the given length. -/
def stopWithin (w : World τ σ) (time : τ) (h : History τ σ) : History τ σ :=
  match w.stopAt with
  | some at_ =>
    if !h.stopped && TimeScale.atMost at_ (TimeScale.add h.now time) then
      { h with
        now := TimeScale.greatest h.now at_, stopped := true
        events := (w.notice.map fun (l, t) => Event.logged l t).reverse ++ h.events }
    else h
  | none => h

/-- A time of sleep. -/
def slept (time : τ) (h : History τ σ) : History τ σ :=
  { h with now := TimeScale.add h.now time, events := .slept time :: h.events }

/-- The reply to a call, and the history afterwards. -/
def reply (w : World τ σ) (c : Call τ) (h : History τ σ) : c.Reply × History τ σ :=
  match c with
  | .clock => (h.now, h)
  | .sleep time => ((), slept time h)
  | .pause time =>
    let h := w.stopWithin time h
    if h.stopped then (true, { h with events := .stopped :: h.events })
    else (false, slept time h)
  | .log level text => ((), { h with events := .logged level text :: h.events })
  | .ask q =>
    let (r, cost, state) := w.answer q h.state
    (r, { h with
      now := TimeScale.add h.now cost, events := .asked q r h.now :: h.events, state })

/-- The value of a program in a world, and its history. -/
def run (w : World τ σ) : Program τ α → History τ σ → α × History τ σ
  | .done a, h => (a, h)
  | .call c next, h =>
    let (r, h) := w.reply c h
    w.run (next r) h

/-- A program and what comes after it run one after the other. -/
theorem run_bind {β : Type} (w : World τ σ) (p : Program τ α) (f : α → Program τ β)
    (h : History τ σ) : w.run (p.bind f) h = w.run (f (w.run p h).1) (w.run p h).2 := by
  induction p generalizing h with
  | done a => rfl
  | call c next ih => exact ih (w.reply c h).1 (w.reply c h).2

end World
end IngressBench
