import IngressBench.Decimal.Layout

/-!
Numbers of documents and clocks: whole numbers of any size, or floating-point numbers. Whole
numbers stay whole under addition and subtraction; with a floating-point partner the arithmetic is
floating-point. Comparison is exact, also across the two kinds.
-/
namespace IngressBench

/-- A whole number or a floating-point number. -/
inductive Number where
  | int (i : Int)
  | real (x : Float)
deriving Inhabited

namespace Number

/-- The nearest floating-point number. -/
def toFloat : Number → Float
  | int i => nearestInt i
  | real x => x

def add : Number → Number → Number
  | int i, int j => int (i + j)
  | a, b => real (a.toFloat + b.toFloat)

def sub : Number → Number → Number
  | int i, int j => int (i - j)
  | a, b => real (a.toFloat - b.toFloat)

/-- The order of a whole number and a finite value. -/
def compareExact (i : Int) (b : Binary) : Ordering :=
  let (n, d) := b.quotient
  compare (i * d) (if b.negative then -(n : Int) else (n : Int))

/-- The order of two numbers; none when one is not a number. -/
def compare? : Number → Number → Option Ordering
  | int i, int j => some (compare i j)
  | real x, real y =>
    if x < y then some .lt else if y < x then some .gt else if x == y then some .eq else none
  | int i, real y => order i y
  | real x, int j => (order j x).map Ordering.swap
where
  order (i : Int) (y : Float) : Option Ordering :=
    match Binary.ofFloat? y with
    | some b => some (compareExact i b)
    | none => if y.isNaN then none else if y < 0 then some .gt else some .lt

def less (a b : Number) : Bool :=
  a.compare? b == some .lt

def atMost (a b : Number) : Bool :=
  match a.compare? b with
  | some .lt | some .eq => true
  | _ => false

def isZero (a : Number) : Bool :=
  a.compare? (int 0) == some .eq

/-- A number as texts show it. -/
def text : Number → String
  | int i => toString i
  | real x => floatText x

end Number
end IngressBench
