import IngressBench.Decimal.Binary
import IngressBench.Text.Blank
import IngressBench.Text.Digit

/-!
Reading numbers written by people and tools: white space around the text, digits of any script, single
underscores between digits, a point with digits on at least one side, an exponent, the infinities
and not-a-number in any case. Whole numbers have the same digits and underscores and no point.
-/
namespace IngressBench

open Text

/-! ### Rows of digits -/

/-- The digits at the start of a text, single underscores between them, and the rest. -/
def digitRow : List Char → List Nat × List Char
  | [] => ([], [])
  | '_' :: rest => ([], '_' :: rest)
  | c :: '_' :: rest =>
    match digitValue? c, digitRow rest with
    | none, _ => ([], c :: '_' :: rest)
    | some d, ([], _) => ([d], '_' :: rest)
    | some d, (ds, tail) => (d :: ds, tail)
  | c :: rest =>
    match digitValue? c with
    | none => ([], c :: rest)
    | some d => let (ds, tail) := digitRow rest; (d :: ds, tail)

/-- A sign and the rest. -/
def signed : List Char → Bool × List Char
  | '-' :: rest => (true, rest)
  | '+' :: rest => (false, rest)
  | s => (false, s)

/-- Equality without regard to the case of ASCII letters. -/
def sameLetters (s t : List Char) : Bool :=
  s.map Char.toLower == t.map Char.toLower

/-- An exponent at the end of a numeral: nothing, or a letter, a sign and digits. -/
def exponentPart : List Char → Option Int
  | [] => some 0
  | c :: rest =>
    if c = 'e' ∨ c = 'E' then
      let (negative, digits) := signed rest
      match digitRow digits with
      | ([], _) => none
      | (ds, []) => some (if negative then -(ofDigits ds : Int) else (ofDigits ds : Int))
      | _ => none
    else none

/-- A decimal numeral without sign: whole digits, fraction digits and exponent. -/
def numeral? (s : List Char) : Option (List Nat × List Nat × Int) :=
  let (whole, rest) := digitRow s
  match rest with
  | '.' :: more =>
    let (fraction, tail) := digitRow more
    if whole.isEmpty && fraction.isEmpty then none
    else (exponentPart tail).map fun e => (whole, fraction, e)
  | _ => if whole.isEmpty then none else (exponentPart rest).map fun e => (whole, [], e)

/-- The number that a sign, digits and an exponent stand for. -/
def numeralValue (negative : Bool) (whole fraction : List Nat) (exponent : Int) : Float :=
  nearestDecimal negative (ofDigits (whole ++ fraction)) (exponent - fraction.length)

/-- A floating-point number as people write it. -/
def readFloat? (s : String) : Option Float :=
  let (negative, body) := signed (trimWith isWhiteSpace s.toList)
  if sameLetters body "inf".toList || sameLetters body "infinity".toList then
    some (if negative then -(1.0 / 0.0) else 1.0 / 0.0)
  else if sameLetters body "nan".toList then some (0.0 / 0.0)
  else (numeral? body).map fun (whole, fraction, e) => numeralValue negative whole fraction e

/-- A whole number as people write it. -/
def readInt? (s : String) : Option Int :=
  let (negative, body) := signed (trimWith isWhiteSpace s.toList)
  match digitRow body with
  | ([], _) => none
  | (ds, []) => some (if negative then -(ofDigits ds : Int) else (ofDigits ds : Int))
  | _ => none

/-- Most digits of a whole number that is read from a text. -/
def digitLimit : Nat := 4300

end IngressBench
