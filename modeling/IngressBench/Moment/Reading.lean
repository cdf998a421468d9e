import IngressBench.Decimal.Reading
import IngressBench.Document
import IngressBench.Record.Issue

/-!
Reading points in time: a date and a time of day in the international order, a date alone, which is
its midnight, or a count of seconds since 1970; above twenty thousand million the count is in
milliseconds. A text is tried as a moment first and as a date after that, and when it is neither,
the sentence about the date tells why.
-/
namespace IngressBench.Moment

open Text

/-- Characters that are left, with the sentence for a refusal. -/
abbrev Scan (α : Type) := StateT (List Char) (Except String) α

/-- The number that the next `count` ASCII digits stand for. -/
def digits (refusal : String) : Nat → Nat → Scan Nat
  | 0, n => return n
  | count + 1, n => do
    match ← get with
    | c :: rest =>
      match asciiDigit? c with
      | some d => do
        set rest
        digits refusal count (10 * n + d)
      | none => throw refusal
    | [] => throw "input is too short"

/-- One character that satisfies `p`. -/
def char (refusal : String) (p : Char → Bool) : Scan Char := do
  match ← get with
  | c :: rest =>
    if p c then do
      set rest
      return c
    else throw refusal
  | [] => throw "input is too short"

/-- Year, month and day. -/
def dateScan : Scan Moment := do
  if (← get).length < 10 then throw "input is too short"
  let year ← digits "invalid character in year" 4 0
  let _ ← char "invalid date separator, expected `-`" (· == '-')
  let month ← digits "invalid character in month" 2 0
  let _ ← char "invalid date separator, expected `-`" (· == '-')
  let day ← digits "invalid character in day" 2 0
  if month < 1 ∨ month > 12 then throw "month value is outside expected range of 1-12"
  if day < 1 ∨ day > daysIn year month then throw "day value is outside expected range"
  return { year, month, day }

/-- The places of a fraction of a second: one to six digits. More digits are read and dropped. -/
def fractionScan : Scan Nat := do
  let s ← get
  let ds := s.takeWhile fun c => (asciiDigit? c).isSome
  if ds.isEmpty then throw "second fraction is missing"
  set (s.drop ds.length)
  let kept := ds.take 6
  return asciiNumber kept * tenTo (6 - kept.length)

/-- The distance from universal time at the end of a text. -/
def offsetScan : Scan (Option Int) := do
  match ← get with
  | [] => return none
  | ['Z'] | ['z'] => return some 0
  | c :: rest =>
    if c = '+' ∨ c = '-' ∨ c = '\u2212' then do
      set rest
      let hours ← digits "invalid timezone hour" 2 0
      match ← get with
      | ':' :: more => set more
      | _ => pure ()
      let minutes ← digits "invalid timezone minute" 2 0
      if minutes > 59 then throw "timezone minute value is outside expected range of 0-59"
      if hours > 23 then throw "timezone offset must be less than 24 hours"
      if !(← get).isEmpty then throw "unexpected extra characters at the end of the input"
      let seconds : Int := hours * 3600 + minutes * 60
      return some (if c = '+' then seconds else -seconds)
    else if c = 'Z' ∨ c = 'z' then throw "unexpected extra characters at the end of the input"
    else throw "invalid timezone sign"

/-- A date, a separator, a time of day and the distance from universal time. -/
def momentScan : Scan Moment := do
  let date ← dateScan
  let _ ← char "invalid datetime separator, expected `T`, `t`, `_` or space"
    fun c => c == 'T' || c == 't' || c == ' ' || c == '_'
  let hour ← digits "invalid character in hour" 2 0
  let _ ← char "invalid time separator, expected `:`" (· == ':')
  let minute ← digits "invalid character in minute" 2 0
  if hour > 23 then throw "hour value is outside expected range of 0-23"
  if minute > 59 then throw "minute value is outside expected range of 0-59"
  let second ← match ← get with
    | ':' :: rest => do
      set rest
      digits "invalid character in second" 2 0
    | _ => pure 0
  if second > 59 then throw "second value is outside expected range of 0-59"
  let microsecond ← match ← get with
    | '.' :: rest | ',' :: rest => do
      set rest
      fractionScan
    | _ => pure 0
  let offset ← offsetScan
  return { date with hour, minute, second, microsecond, offset }

/-! ### Counts of seconds -/

/-- The count from which on counts are milliseconds. -/
def millisecondsAbove : Int := 20000000000

/-- The first count of seconds, that of the year 1600. -/
def leastSeconds : Int := -11676096000

/-- The last count of seconds, at the end of the year 9999. -/
def greatestSeconds : Int := 253402300799

/-- The moment of a count and a part of it in millionths. -/
def ofCount (count : Int) (millionths : Int) : Except String Moment :=
  let (seconds, micros) :=
    if count.natAbs > millisecondsAbove.natAbs then
      (count.fdiv 1000, count.fmod 1000 * 1000 + millionths.fdiv 1000)
    else (count, millionths)
  if seconds < leastSeconds then
    .error "dates before 1600 are not supported as unix timestamps"
  else if seconds > greatestSeconds then
    .error "dates after 9999 are not supported as unix timestamps"
  else
    match ofUnix? (seconds * 1000000 + micros) with
    | some m => .ok m
    | none => .error "dates after 9999 are not supported as unix timestamps"

/-- The moment of a count with a fraction. -/
def ofReal (x : Float) : Except String Moment :=
  match Binary.ofFloat? x with
  | none =>
    if x.isNaN then .error "NaN values not permitted"
    else if x < 0 then .error "dates before 1600 are not supported as unix timestamps"
    else .error "dates after 9999 are not supported as unix timestamps"
  | some b =>
    let (n, d) := b.quotient
    let scaled : Int := (n * 1000000 + d / 2) / d
    let total := if b.negative then -scaled else scaled
    ofCount (total.fdiv 1000000) (total.fmod 1000000)

/-! ### Values -/

/-- A text of a sign and ASCII digits as a whole number. -/
def countOf? (s : List Char) : Option Int :=
  let (negative, digits) := signed s
  if digits.isEmpty || !digits.all fun c => (asciiDigit? c).isSome then none
  else some (if negative then -(asciiNumber digits : Int) else (asciiNumber digits : Int))

/-- The moment that a text holds. -/
def ofText? (s : String) : Option Moment :=
  let chars := s.toList
  match momentScan.run chars with
  | .ok (m, _) => some m
  | .error _ =>
    match countOf? chars with
    | some n => (ofCount n 0).toOption
    | none =>
      if chars.all fun c => (asciiDigit? c).isSome || c == '.' || c == '-' then
        (readFloat? s).bind fun x => (ofReal x).toOption
      else none

/-- The midnight of the date that a text holds. -/
def dateOfText (s : String) : Except String Moment :=
  match dateScan.run s.toList with
  | .ok (m, []) => .ok m
  | .ok _ => .error "unexpected extra characters at the end of the input"
  | .error why => .error why

/-- The moment that a value stands for. -/
def ofDocument (d : Document) : Except Cause Moment :=
  match d with
  | .moment m => .ok m
  | .date year month day => .ok { year, month, day }
  | .number (.int i) => (ofCount i 0).mapError .momentUnreadable
  | .number (.real x) => (ofReal x).mapError .momentUnreadable
  | .text s =>
    match ofText? s with
    | some m => .ok m
    | none => (dateOfText s).mapError .dayUnreadable
  | _ => .error .notMoment

end IngressBench.Moment
