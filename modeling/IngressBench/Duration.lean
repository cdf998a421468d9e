import IngressBench.Decimal.Reading
import IngressBench.Document.Shown
import IngressBench.Failure

/-!
Durations. A duration is a number of seconds, or a text of decimal digits of any script, a fraction
after a point, and a unit of milliseconds, seconds, minutes or hours right behind them; without a
unit the number counts seconds. Blanks around the text are no part of it.
-/
namespace IngressBench.Duration

open Text

/-- A unit of time. -/
inductive Scale where
  | milliseconds
  | seconds
  | minutes
  | hours
deriving Repr, DecidableEq

/-- The unit that letters stand for; no letters stand for seconds. -/
def scale? : List Char → Option Scale
  | [] | ['s'] => some .seconds
  | ['m', 's'] => some .milliseconds
  | ['m'] => some .minutes
  | ['h'] => some .hours
  | _ => none

/-- How many seconds a unit has. -/
def Scale.factor : Scale → Float
  | .milliseconds => 0.001
  | .seconds => 1
  | .minutes => 60
  | .hours => 3600

/-- The digits of a text that reads as a duration, and its unit. -/
structure Reading where
  whole : List Nat
  fraction : List Nat
  scale : Scale
deriving Repr, DecidableEq

/-- The seconds of a reading. -/
def Reading.seconds (r : Reading) : Float :=
  numeralValue false r.whole r.fraction 0 * r.scale.factor

/-- The decimal digits at the start of a text, and the rest. -/
def digitsOf : List Char → List Nat × List Char
  | [] => ([], [])
  | c :: rest =>
    match digitValue? c with
    | some d => let (ds, tail) := digitsOf rest; (d :: ds, tail)
    | none => ([], c :: rest)

/-- The reading of a text without blanks around it. -/
def Reading.ofChars? (s : List Char) : Option Reading :=
  match digitsOf s with
  | ([], _) => none
  | (whole, '.' :: rest) =>
    match digitsOf rest with
    | ([], _) => none
    | (fraction, tail) => (scale? tail).map (⟨whole, fraction, ·⟩)
  | (whole, tail) => (scale? tail).map (⟨whole, [], ·⟩)

/-- The reading of a text. -/
def read? (s : String) : Option Reading :=
  Reading.ofChars? (trim s.toList)

/-- Why a value is no duration. -/
inductive Fault where
  | invalid (shown : String)
  | tooLarge
deriving Repr, DecidableEq

def Fault.message : Fault → String
  | invalid shown => "invalid duration: " ++ shown
  | tooLarge => "int too large to convert to float"

def Fault.failure (fault : Fault) : Failure :=
  match fault with
  | invalid _ => .value fault.message
  | tooLarge => .overflow fault.message

/-- The seconds that a value stands for. -/
def ofDocument (d : Document) : Except Fault Float :=
  match d with
  | .number (.int i) =>
    let x := nearestInt i
    if x.isInf then .error .tooLarge else .ok x
  | .number (.real x) => .ok x
  | .text s =>
    match read? s with
    | some r => .ok r.seconds
    | none => .error (.invalid d.shown)
  | _ => .error (.invalid d.shown)

end IngressBench.Duration
