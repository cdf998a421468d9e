import IngressBench.Decimal.Reading
import IngressBench.Document
import IngressBench.Record.Issue

/-!
Reading single values of a record. A value of a neighbouring kind is taken where nothing is lost:
a whole number may be a truth value, a number without fraction, or a text of digits; a truth value
may be one of the words for yes and no. Every refusal has one cause.
-/
namespace IngressBench.Record

open Text

/-! ### Texts -/

/-- The text of a text value, or of bytes that hold a text. -/
def asText : Document → Except Cause String
  | .text s => .ok s
  | .bytes bs =>
    match String.fromUTF8? (ByteArray.mk bs.toArray) with
    | some s => .ok s
    | none => .error .textEncoding
  | _ => .error .notText

/-- The text behind a value that may be read as something else; `unreadable` is the cause when
bytes hold no text. -/
def spelling? (unreadable : Cause) : Document → Except Cause (Option String)
  | .text s => .ok (some s)
  | .bytes bs =>
    match String.fromUTF8? (ByteArray.mk bs.toArray) with
    | some s => .ok (some s)
    | none => .error unreadable
  | _ => .ok none

/-! ### Whole numbers -/

/-- ASCII digits with single underscores between them. -/
def plainDigits? : List Char → Option (List Nat)
  | [] => none
  | [c] => (asciiDigit? c).map ([·])
  | c :: '_' :: rest => do
    let d ← asciiDigit? c
    return d :: (← plainDigits? rest)
  | c :: rest => do
    let d ← asciiDigit? c
    return d :: (← plainDigits? rest)

/-- A text of digits without the point and zeros at its end. -/
def withoutZeros (s : List Char) : List Char :=
  match s.reverse.dropWhile (· == '0') with
  | '.' :: rest => if s.getLast? == some '.' then s else rest.reverse
  | _ => s

/-- The whole number a text of digits stands for. -/
def readWhole (s : String) : Except Cause Int :=
  let body := trimWith isWhiteSpace s.toList
  let (negative, digits) := match body with
    | '-' :: rest => (true, rest)
    | '+' :: rest => (false, rest)
    | rest => (false, rest)
  if body.length > digitLimit then .error .wholeTooLarge
  else
    match plainDigits? (withoutZeros digits) with
    | some ds => .ok (if negative then -(ofDigits ds : Int) else (ofDigits ds : Int))
    | none => .error .wholeUnreadable

/-- The whole number that a floating-point number without fraction is; its magnitude stays below
`2 ^ 63`. -/
def wholeOfFloat (x : Float) : Except Cause Int :=
  match Binary.ofFloat? x with
  | none => .error .notFinite
  | some b =>
    if !b.isWhole then .error .fractional
    else if b.truncated.natAbs < twoTo 63 then .ok b.truncated
    else .error .wholeTooLarge

/-- The whole number that a value stands for. -/
def asWhole (d : Document) : Except Cause Int :=
  match d with
  | .number (.int i) => .ok i
  | .number (.real x) => wholeOfFloat x
  | .bool b => .ok (if b then 1 else 0)
  | d => do
    match ← spelling? .wholeUnreadable d with
    | some s => readWhole s
    | none => .error .notWhole

/-- A whole number of at least `least`. -/
def atLeast (least : Int) (d : Document) : Except Cause Int := do
  let i ← asWhole d
  if i < least then .error (.below least) else return i

/-! ### Numbers -/

/-- Whether a whole number is within the range of floating-point numbers. -/
def fitsFloat (i : Int) : Bool :=
  !(nearestInt i).isInf

/-- The floating-point number that a value stands for. -/
def asNumber (d : Document) : Except Cause Float :=
  match d with
  | .number (.int i) => if fitsFloat i then .ok (nearestInt i) else .error .notNumber
  | .number (.real x) => .ok x
  | .bool b => .ok (if b then 1.0 else 0.0)
  | d => do
    match ← spelling? .numberUnreadable d with
    | some s =>
      match readFloat? s with
      | some x => .ok x
      | none => .error .numberUnreadable
    | none => .error .notNumber

/-- A number above zero. -/
def positive (x : Float) : Except Cause Float :=
  if x > 0 then .ok x else .error (.notAbove 0)

/-- A number of at least zero. -/
def nonnegative (x : Float) : Except Cause Float :=
  if x ≥ 0 then .ok x else .error (.below 0)

/-! ### Truth values and choices -/

def yesWords : List String := ["1", "on", "t", "true", "y", "yes"]

def noWords : List String := ["0", "off", "f", "false", "n", "no"]

/-- The truth value that a word stands for, in any case. -/
def readTruth (s : String) : Except Cause Bool :=
  let word := s.map Char.toLower
  if yesWords.contains word then .ok true
  else if noWords.contains word then .ok false
  else .error .truthUnreadable

/-- The truth value that a value stands for. -/
def asTruth (d : Document) : Except Cause Bool :=
  match d with
  | .bool b => .ok b
  | .number (.int i) =>
    if i = 0 then .ok false
    else if i = 1 then .ok true
    else if -(twoTo 63 : Int) ≤ i ∧ i < twoTo 63 then .error .truthUnreadable
    else .error .notTruth
  | .number (.real x) =>
    match wholeOfFloat x with
    | .ok 0 => .ok false
    | .ok 1 => .ok true
    | .ok _ => .error .truthUnreadable
    | .error _ => .error .notTruth
  | d => do
    match ← spelling? .truthUnreadable d with
    | some s => readTruth s
    | none => .error .notTruth

/-- The member of a choice that a text names. -/
def asChoice {α : Type} (choices : List (String × α)) (d : Document) : Except Cause α :=
  match d.text?.bind fun s => List.lookup s choices with
  | some a => .ok a
  | none => .error (.notAmong (choices.map Prod.fst))

end IngressBench.Record
