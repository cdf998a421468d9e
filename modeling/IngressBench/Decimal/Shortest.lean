import IngressBench.Decimal.Binary

/-!
The shortest decimal that reads back. The reals that round to a floating-point number form an
interval around it, whose ends belong to it exactly when the mantissa is even. For one digit, two
digits and so on, the two neighbours of the value on the grid of that many digits are tried; the
first grid with a neighbour in the interval gives the digits, the nearer neighbour wins, and an
exact tie goes to the even last digit.
-/
namespace IngressBench

/-- `digits * 10 ^ exponent`. -/
structure Decimal where
  digits : Nat
  exponent : Int
deriving Repr, DecidableEq

/-- The reals that round to a number: `lower / scale` to `upper / scale` around `value / scale`. -/
structure Interval where
  lower : Nat
  value : Nat
  upper : Nat
  scale : Nat
  closed : Bool

namespace Interval

/-- The interval around a mantissa times a power of two. -/
def around (mantissa : Nat) (exponent : Int) : Interval :=
  let below := if mantissa = twoTo 52 ∧ exponent > -1074 then 1 else 2
  let e := exponent - 2
  let up := twoTo e.toNat
  ⟨(4 * mantissa - below) * up, 4 * mantissa * up, (4 * mantissa + 2) * up, twoTo (-e).toNat,
    mantissa % 2 == 0⟩

/-- Membership of `n / d`. -/
def contains (i : Interval) (n d : Nat) : Bool :=
  let x := n * i.scale
  if i.closed then i.lower * d ≤ x && x ≤ i.upper * d else i.lower * d < x && x < i.upper * d

/-- The count of digits before the point, or minus the count of zeros after it. -/
def magnitude (i : Interval) : Int :=
  if i.value ≥ i.scale then ((Nat.toDigits 10 (i.value / i.scale)).length : Int)
  else
    let zeros := (Nat.toDigits 10 (i.scale / i.value)).length - 1
    if i.value * tenTo zeros ≥ i.scale then 1 - (zeros : Int) else -(zeros : Int)

/-- The neighbour in the interval on the grid of `10 ^ exponent`, if there is one. -/
def onGrid (i : Interval) (exponent : Int) : Option Decimal :=
  let n := tenTo exponent.toNat
  let d := tenTo (-exponent).toNat
  let low := i.value * d / (i.scale * n)
  let rest := i.value * d - low * (i.scale * n)
  let lowIn := i.contains (low * n) d
  let highIn := i.contains ((low + 1) * n) d
  let twice := 2 * rest
  let lowNearer := twice < i.scale * n || (twice == i.scale * n && low % 2 == 0)
  if lowIn && (!highIn || lowNearer) then some ⟨low, exponent⟩
  else if highIn then some ⟨low + 1, exponent⟩
  else none

/-- The first hit on the grids of `count`, `count + 1`, … digits. -/
def search (i : Interval) (magnitude : Int) : Nat → Nat → Decimal
  | 0, count => (i.onGrid (magnitude - count)).getD ⟨0, 0⟩
  | left + 1, count =>
    match i.onGrid (magnitude - count) with
    | some d => d
    | none => i.search magnitude left (count + 1)

end Interval

/-- Without zeros at the end of the digits. At most `fuel` zeros are taken away. -/
def Decimal.stripped : Nat → Decimal → Decimal
  | 0, d => d
  | fuel + 1, d =>
    if d.digits ≠ 0 ∧ d.digits % 10 = 0 then stripped fuel ⟨d.digits / 10, d.exponent + 1⟩ else d

/-- The shortest decimal that reads back as a positive mantissa times a power of two. -/
def shortest (mantissa : Nat) (exponent : Int) : Decimal :=
  if mantissa = 0 then ⟨0, 0⟩
  else
    let i := Interval.around mantissa exponent
    Decimal.stripped 20 (i.search i.magnitude 17 1)

end IngressBench
