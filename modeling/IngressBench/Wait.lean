import IngressBench.Program
import IngressBench.Time

/-!
Bounded waits. A wait looks, pauses, and looks again until what it sees is enough, the deadline has
passed, or the run is stopped; the last pause is cut short so that a look falls on the deadline. A
look that fails ends the wait.
-/
namespace IngressBench

variable {τ β : Type} [TimeScale τ]

/-- How a wait passes the time: `interval` is the length of a pause, and the stop of the run ends
the pauses of a stoppable wait. -/
structure Pace (τ : Type) where
  interval : τ
  stoppable : Bool

/-- Lets some time pass, and tells whether the wait is cancelled. -/
def Pace.rest (pace : Pace τ) (time : τ) : Action τ Bool := do
  if pace.stoppable then Action.pause time
  else
    Action.sleep time
    return false

/-- The fault of a wait that took too long. -/
def timedOut (timeout : τ) : WaitFault :=
  .timedOut (TimeScale.text timeout)

/-- Looks until the deadline, and not many more than `budget` times. What was seen last comes with
the fault that ended the wait, if any. -/
def watchLoop (pace : Pace τ) (timeout deadline : τ) (look : Action τ (β × Bool)) :
    Nat → Action τ (β × Option WaitFault)
  | 0 => do
    let (seen, enough) ← look
    return (seen, if enough then none else some (timedOut timeout))
  | budget + 1 => do
    let (seen, enough) ← look
    if enough then return (seen, none)
    let remaining := TimeScale.sub deadline (← Action.clock)
    if TimeScale.atMost remaining TimeScale.zero then return (seen, some (timedOut timeout))
    if ← pace.rest (TimeScale.least pace.interval remaining) then return (seen, some .cancelled)
    watchLoop pace timeout deadline look budget

/-- Looks at once, and again until what is seen is enough. -/
def watch (pace : Pace τ) (timeout : τ) (look : Action τ (β × Bool)) :
    Action τ (β × Option WaitFault) := do
  let deadline := TimeScale.add (← Action.clock) timeout
  watchLoop pace timeout deadline look (TimeScale.rounds pace.interval timeout)

/-- Waits for a condition; the first check comes at once, or after one pause. -/
def waitUntil (pace : Pace τ) (timeout : τ) (condition : Action τ Bool) (immediate : Bool := true) :
    Action τ Unit := do
  let deadline := TimeScale.add (← Action.clock) timeout
  if !immediate then
    if ← pace.rest pace.interval then throw (.wait .cancelled)
  let look := do return ((), ← condition)
  match ← watchLoop pace timeout deadline look (TimeScale.rounds pace.interval timeout) with
  | ((), none) => return
  | ((), some fault) => throw (.wait fault)

end IngressBench
