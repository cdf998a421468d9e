import IngressBench.Decimal.Layout

/-!
Points in civil time: a date and a time of day, with or without the distance from universal time.
A moment is written in the international order with a `T`, six places when there is a fraction of a
second, and `Z` or the distance at the end when it is known.
-/
namespace IngressBench

/-- A date and time of day; `offset` is the distance from universal time in seconds. -/
structure Moment where
  year : Nat
  month : Nat
  day : Nat
  hour : Nat := 0
  minute : Nat := 0
  second : Nat := 0
  microsecond : Nat := 0
  offset : Option Int := none
deriving DecidableEq, Repr, Inhabited

namespace Moment

def isLeap (year : Nat) : Bool :=
  year % 4 == 0 && (year % 100 != 0 || year % 400 == 0)

/-- The count of days of a month. -/
def daysIn (year month : Nat) : Nat :=
  match month with
  | 2 => if isLeap year then 29 else 28
  | 4 | 6 | 9 | 11 => 30
  | _ => 31

/-- Digits of a number, with zeros in front up to a width. -/
def field (width n : Nat) : String :=
  String.ofList (padded width (Nat.toDigits 10 n))

/-- The distance from universal time: `Z`, or sign, hours and minutes. -/
def offsetText (seconds : Int) : String :=
  if seconds = 0 then "Z"
  else
    let n := seconds.natAbs
    (if seconds < 0 then "-" else "+") ++ field 2 (n / 3600) ++ ":" ++ field 2 (n / 60 % 60)

/-- A moment in the international order. -/
def text (m : Moment) : String :=
  field 4 m.year ++ "-" ++ field 2 m.month ++ "-" ++ field 2 m.day ++ "T" ++
    field 2 m.hour ++ ":" ++ field 2 m.minute ++ ":" ++ field 2 m.second ++
    (if m.microsecond = 0 then "" else "." ++ field 6 m.microsecond) ++
    (match m.offset with | some s => offsetText s | none => "")

/-! ### Counting seconds -/

/-- Days from the first day of the year 1 to the first day of a year. -/
def daysBefore (year : Nat) : Nat :=
  let y := year - 1
  365 * y + y / 4 - y / 100 + y / 400

/-- Year, month and day of a count of days from the first day of the year 1. At most `fuel` years
and months are counted off. -/
def civil : Nat → Nat → Nat → Nat → Nat × Nat × Nat
  | 0, year, month, days => (year, month, days + 1)
  | fuel + 1, year, month, days =>
    if days < daysIn year month then (year, month, days + 1)
    else if month = 12 then civil fuel (year + 1) 1 (days - 31)
    else civil fuel year (month + 1) (days - daysIn year month)

/-- The moment in universal time a count of microseconds after the start of 1970, if the year has
at most four digits and at least the value 1. -/
def ofUnix? (microseconds : Int) : Option Moment :=
  let day := 86400000000
  let days := microseconds.fdiv day
  let rest := (microseconds.fmod day).toNat
  let total := days + daysBefore 1970
  if total < 0 ∨ total ≥ daysBefore 10000 then none
  else
    let n := total.toNat
    let guess := n / 366
    let (year, month, d) := civil 1000 (guess + 1) 1 (n - daysBefore (guess + 1))
    some ⟨year, month, d, rest / 3600000000, rest / 60000000 % 60, rest / 1000000 % 60,
      rest % 1000000, some 0⟩

end Moment
end IngressBench
