import IngressBench.Decimal.Power

/-!
The exact value of a floating-point number, and the nearest floating-point number to an exact
value. A finite number is a mantissa times a power of two; a quotient is rounded to the nearest
such number, a tie to the even mantissa, and to an infinity from half a step above the largest.
-/
namespace IngressBench

/-- `mantissa * 2 ^ exponent`, negated when `negative`. -/
structure Binary where
  negative : Bool
  mantissa : Nat
  exponent : Int
deriving Repr, DecidableEq

namespace Binary

/-- The exact value of a finite number. -/
def ofFloat? (x : Float) : Option Binary :=
  let bits : Nat := x.toBits.toNat
  let field : Nat := bits / twoTo 52 % twoTo 11
  let fraction : Nat := bits % twoTo 52
  let negative := bits / twoTo 63 == 1
  if field = 2047 then none
  else if field = 0 then some ⟨negative, fraction, -1074⟩
  else some ⟨negative, twoTo 52 + fraction, (field : Int) - 1075⟩

/-- The magnitude as a quotient of two naturals. -/
def quotient (b : Binary) : Nat × Nat :=
  if b.exponent ≥ 0 then (b.mantissa * twoTo b.exponent.toNat, 1)
  else (b.mantissa, twoTo (-b.exponent).toNat)

/-- The whole part, toward zero. -/
def truncated (b : Binary) : Int :=
  let (n, d) := b.quotient
  if b.negative then -((n / d : Nat) : Int) else ((n / d : Nat) : Int)

/-- Whether the value is a whole number. -/
def isWhole (b : Binary) : Bool :=
  let (n, d) := b.quotient
  n % d == 0

end Binary

/-- The quotient of two naturals rounded to the nearest natural, a half to the even neighbour. -/
def roundHalfEven (n d : Nat) : Nat :=
  let q := n / d
  let r := n % d
  if 2 * r < d then q
  else if 2 * r > d then q + 1
  else if q % 2 = 0 then q else q + 1

/-- The bits of a non-negative number with the given mantissa and exponent, where the mantissa has
fifty-three bits, or fewer at the least exponent. -/
def packBits (mantissa : Nat) (exponent : Int) : Nat :=
  if mantissa < twoTo 52 then mantissa
  else if exponent > 971 then 2047 * twoTo 52
  else (exponent + 1075).toNat * twoTo 52 + (mantissa - twoTo 52)

/-- The bits of the number nearest to `n / d`. -/
def nearestBits (n d : Nat) : Nat :=
  if n = 0 then 0
  else
    let guess : Int := (n.log2 : Int) - d.log2 - 52
    -- the quotient of the logarithms is off by one at most
    let scaled (e : Int) : Nat × Nat := if e ≥ 0 then (n, d * twoTo e.toNat) else (n * twoTo (-e).toNat, d)
    let (a, b) := scaled guess
    let fitted := if a / b < twoTo 52 then guess - 1 else guess
    let exponent := if fitted < -1074 then -1074 else fitted
    let (a, b) := scaled exponent
    let mantissa := roundHalfEven a b
    if mantissa = twoTo 53 then packBits (twoTo 52) (exponent + 1) else packBits mantissa exponent

/-- The floating-point number nearest to `n / d`, negated when `negative`. -/
def nearest (negative : Bool) (n d : Nat) : Float :=
  Float.ofBits (UInt64.ofNat (nearestBits n d + if negative then twoTo 63 else 0))

/-- The floating-point number nearest to a whole number, an infinity when it is too large. -/
def nearestInt (i : Int) : Float :=
  nearest (i < 0) i.natAbs 1

/-- The floating-point number nearest to `coefficient * 10 ^ exponent`. Exponents beyond the
range of every floating-point number are decided by the count of digits alone. -/
def nearestDecimal (negative : Bool) (coefficient : Nat) (exponent : Int) : Float :=
  let size : Int := ((Nat.toDigits 10 coefficient).length : Int) + exponent
  if coefficient = 0 ∨ size < -400 then nearest negative 0 1
  else if size > 400 then nearest negative (twoTo 1024) 1
  else if exponent ≥ 0 then nearest negative (coefficient * tenTo exponent.toNat) 1
  else nearest negative coefficient (tenTo (-exponent).toNat)

end IngressBench
