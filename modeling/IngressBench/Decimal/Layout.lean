import IngressBench.Decimal.Shortest

/-!
How a number is written: the shortest decimal that reads back, positional from `0.0001` up to
sixteen digits before the point and with an exponent of at least two digits outside, always with a
point or an exponent; or a fixed count of places, rounded from the exact value with halves to even.
-/
namespace IngressBench

/-- The decisions of a number format. -/
structure Layout where
  /-- Least count of digits before the point written positionally; below zero it counts zeros. -/
  least : Int
  /-- Greatest count of digits before the point written positionally. -/
  greatest : Int
  /-- Least count of digits of an exponent. -/
  exponentWidth : Nat
  infinity : String
  notANumber : String

/-- Numbers in texts: `0.0001` and `1e-05`, `1000000000000000.0` and `1e+16`. -/
def Layout.plain : Layout := ⟨-3, 16, 2, "inf", "nan"⟩

/-- Numbers in JSON texts. -/
def Layout.json : Layout := { Layout.plain with infinity := "Infinity", notANumber := "NaN" }

/-- Zeros in front of digits up to a width. -/
def padded (width : Nat) (digits : List Char) : List Char :=
  List.replicate (width - digits.length) '0' ++ digits

/-- The digits of a decimal in a layout. -/
def Layout.write (layout : Layout) (d : Decimal) : List Char :=
  let digits := Nat.toDigits 10 d.digits
  let before : Int := if d.digits = 0 then 1 else digits.length + d.exponent
  if before < layout.least ∨ before > layout.greatest then
    let power := before - 1
    let fraction := digits.drop 1
    let head := digits.take 1 ++ (if fraction.isEmpty then [] else '.' :: fraction)
    let sign := if power < 0 then '-' else '+'
    head ++ 'e' :: sign :: padded layout.exponentWidth (Nat.toDigits 10 power.natAbs)
  else if before ≤ 0 then
    '0' :: '.' :: List.replicate (-before).toNat '0' ++ digits
  else
    let whole := digits ++ List.replicate (before.toNat - digits.length) '0'
    let fraction := whole.drop before.toNat
    whole.take before.toNat ++ '.' :: (if fraction.isEmpty then ['0'] else fraction)

/-- A floating-point number in a layout. -/
def Layout.text (layout : Layout) (x : Float) : String :=
  match Binary.ofFloat? x with
  | some b =>
    let digits := layout.write (shortest b.mantissa b.exponent)
    String.ofList (if b.negative then '-' :: digits else digits)
  | none =>
    if x.isNaN then layout.notANumber
    else if x < 0 then "-" ++ layout.infinity else layout.infinity

/-- A floating-point number as texts and command lines show it. -/
def floatText (x : Float) : String :=
  Layout.plain.text x

/-- The magnitude of a quotient with a fixed count of places. -/
def fixedDigits (places n d : Nat) : List Char :=
  let scaled := roundHalfEven (n * tenTo places) d
  let digits := padded (places + 1) (Nat.toDigits 10 scaled)
  let whole := digits.length - places
  digits.take whole ++ (if places = 0 then [] else '.' :: digits.drop whole)

/-- A floating-point number with a fixed count of places. -/
def fixedText (places : Nat) (x : Float) : String :=
  match Binary.ofFloat? x with
  | some b =>
    let (n, d) := b.quotient
    let digits := fixedDigits places n d
    String.ofList (if b.negative then '-' :: digits else digits)
  | none => floatText x

end IngressBench
