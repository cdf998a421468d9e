import IngressBench.Document
import IngressBench.Json.Reading
import IngressBench.Text.Case
import IngressBench.Yaml.Node

/-!
The values of scalars. Every tag reads the text in a form of its own; a text that the tag's form does
not admit is refused, most often with the sentence of the number or the date that it is not.
-/
namespace IngressBench.Yaml

open Text

/-! ### Whole numbers -/

/-- The digits of a text to a base up to sixteen, single underscores between them. -/
def baseDigits? (base : Nat) : List Char → Option (List Nat)
  | [] => none
  | [c] => digit c
  | c :: '_' :: rest => do
    let d ← digit c
    return d ++ (← baseDigits? base rest)
  | c :: rest => do
    let d ← digit c
    return d ++ (← baseDigits? base rest)
where
  digit (c : Char) : Option (List Nat) :=
    match digitValue? c <|> Json.hexDigit? c with
    | some d => if d < base then some [d] else none
    | none => none

/-- The letter that marks a base in front of the digits. -/
def baseLetter : Nat → Char
  | 2 => 'b'
  | 8 => 'o'
  | _ => 'x'

/-- The text without the mark of its base. -/
def withoutMark (base : Nat) : List Char → List Char
  | '0' :: c :: rest =>
    if base ≠ 10 && c.toLower == baseLetter base then
      match rest with
      | '_' :: more => more
      | more => more
    else '0' :: c :: rest
  | s => s

/-- A whole number to a base. -/
def wholeInBase (base : Nat) (s : String) : Except Fault Int :=
  let (negative, body) := signed (trim s.toList)
  match baseDigits? base (withoutMark base body) with
  | none => .error (.value s!"invalid literal for int() with base {base}: {quoted s}")
  | some ds =>
    if base = 10 && ds.length > digitLimit then .error (.value (Json.tooManyDigits ds.length))
    else
      let n : Int := (ds.foldl (fun n d => base * n + d) 0 : Nat)
      .ok (if negative then -n else n)

/-- The sum of numbers to base sixty, least significant first. -/
def sixtyWhole : Int → List Int → Int
  | _, [] => 0
  | base, d :: rest => d * base + sixtyWhole (base * 60) rest

/-- A text at its colons. -/
def colonParts (s : List Char) : List String :=
  (String.ofList s).splitOn ":"

/-- The sign of a number and what follows; a number has at least one character behind the sign. -/
def signParts (s : List Char) : Except Fault (Bool × List Char) :=
  match s with
  | [] => .error .empty
  | c :: rest => .ok (c == '-', if isSign c then rest else c :: rest)

/-- The whole number of a scalar. -/
def wholeScalar (text : String) : Except Fault Int := do
  let (negative, s) ← signParts (text.toList.filter (· ≠ '_'))
  let n ← match s with
    | ['0'] => pure 0
    | '0' :: 'b' :: rest => wholeInBase 2 (String.ofList rest)
    | '0' :: 'x' :: rest => wholeInBase 16 (String.ofList rest)
    | '0' :: rest => wholeInBase 8 (String.ofList ('0' :: rest))
    | [] => throw .empty
    | s =>
      if s.contains ':' then do
        let parts ← (colonParts s).mapM (wholeInBase 10)
        pure (sixtyWhole 1 parts.reverse)
      else wholeInBase 10 (String.ofList s)
  return if negative then -n else n

/-! ### Numbers -/

/-- A number as people write it. -/
def realOf (s : String) : Except Fault Float :=
  match readFloat? s with
  | some x => .ok x
  | none => .error (.value ("could not convert string to float: " ++ quoted s))

/-- The sum of numbers to base sixty, least significant first. -/
def sixtyReal : Float → Int → List Float → Float
  | acc, _, [] => acc
  | acc, base, d :: rest => sixtyReal (acc + d * nearestInt base) (base * 60) rest

/-- The floating-point number of a scalar. -/
def realScalar (text : String) : Except Fault Float := do
  let (negative, s) ← signParts ((lower text).toList.filter (· ≠ '_'))
  let sign (x : Float) : Float := if negative then -x else x
  match String.ofList s with
  | ".inf" => return sign (1.0 / 0.0)
  | ".nan" => return 0.0 / 0.0
  | body =>
    if s.contains ':' then do
      let parts ← (colonParts s).mapM realOf
      return sign (sixtyReal 0.0 1 parts.reverse)
    else return sign (← realOf body)

/-! ### Points in time -/

/-- The sentence about a distance from universal time of a day or more. -/
def distanceSentence (seconds : Int) : String :=
  let days := seconds.fdiv 86400
  let rest := seconds.fmod 86400
  let shown := s!"days={days}" ++ if rest = 0 then "" else s!", seconds={rest}"
  "offset must be a timedelta strictly between -timedelta(hours=24) and timedelta(hours=24), " ++
    "not datetime.timedelta(" ++ shown ++ ")."

/-- The seconds of a distance from universal time, if there is one. -/
def distanceSeconds : List Char → Option Int
  | [] => none
  | sign :: rest =>
    if sign == 'Z' then some 0
    else
      let hours := asciiNumber (rest.takeWhile Char.isDigit)
      let minutes := asciiNumber (rest.dropWhile Char.isDigit)
      let seconds : Int := hours * 3600 + minutes * 60
      some (if sign == '-' then -seconds else seconds)

/-- Refuses a date that no calendar has. -/
def checkDate (year month day : Nat) : Except Fault Unit :=
  if year < 1 then .error (.value s!"year {year} is out of range")
  else if month < 1 ∨ month > 12 then .error (.value "month must be in 1..12")
  else if day < 1 ∨ day > Moment.daysIn year month then
    .error (.value "day is out of range for month")
  else .ok ()

/-- The point in time of a scalar. -/
def timeScalar (text : String) : Except Fault Document := do
  let some p := timeParts? text.toList
    | throw (.part "'NoneType' object has no attribute 'groupdict'")
  let (year, month, day) := (asciiNumber p.year, asciiNumber p.month, asciiNumber p.day)
  match p.clock with
  | none => do
    checkDate year month day
    return .date year month day
  | some (h, m, s, fraction, distance) => do
    let offset := distanceSeconds distance
    if (offset.getD 0).natAbs ≥ 86400 then throw (.value (distanceSentence (offset.getD 0)))
    checkDate year month day
    let (hour, minute, second) := (asciiNumber h, asciiNumber m, asciiNumber s)
    if hour > 23 then throw (.value "hour must be in 0..23")
    if minute > 59 then throw (.value "minute must be in 0..59")
    if second > 59 then throw (.value "second must be in 0..59")
    let places := fraction.take 6
    let microsecond := asciiNumber places * tenTo (6 - places.length)
    return .moment { year, month, day, hour, minute, second, microsecond, offset }

/-! ### Bytes -/

/-- The value of a character that stands for six bits. -/
def sixBits? (c : Char) : Option Nat :=
  if 'A' ≤ c ∧ c ≤ 'Z' then some (c.toNat - 'A'.toNat)
  else if 'a' ≤ c ∧ c ≤ 'z' then some (c.toNat - 'a'.toNat + 26)
  else if '0' ≤ c ∧ c ≤ '9' then some (c.toNat - '0'.toNat + 52)
  else if c = '+' then some 62
  else if c = '/' then some 63
  else none

/-- The bytes of four characters each. `pending` is the position in a group of four, `left` the bits
that wait, `pads` the count of marks for left-out characters. Other characters count for nothing. -/
def sixBitBytes : List Char → Nat → Nat → Nat → List UInt8 → Except Fault (List UInt8)
  | [], pending, _, _, acc => if pending = 0 then .ok acc.reverse else .error .malformed
  | c :: rest, pending, left, pads, acc =>
    if c = '=' then
      if pending ≥ 2 ∧ pending + pads + 1 ≥ 4 then .ok acc.reverse
      else sixBitBytes rest pending left (if pending ≥ 2 then pads + 1 else pads) acc
    else
      match sixBits? c, pending with
      | none, _ => sixBitBytes rest pending left pads acc
      | some v, 0 => sixBitBytes rest 1 v 0 acc
      | some v, 1 => sixBitBytes rest 2 (v % 16) 0 (UInt8.ofNat (left * 4 + v / 16) :: acc)
      | some v, 2 => sixBitBytes rest 3 (v % 4) 0 (UInt8.ofNat (left * 16 + v / 4) :: acc)
      | some v, _ => sixBitBytes rest 0 0 0 (UInt8.ofNat (left * 64 + v) :: acc)

/-! ### All scalars -/

/-- The truth value of a scalar. -/
def truthScalar (text : String) : Except Fault Bool :=
  let word := lower text
  match truthWords.lookup word with
  | some b => .ok b
  | none => .error (.word (quoted word))

/-- How a tag reads the text of a scalar, if it is the tag of a scalar. -/
def scalarReader? (tag : String) : Option (String → Except Fault Document) :=
  if tag = coreTag "null" then some fun _ => .ok .null
  else if tag = coreTag "bool" then some fun s => (truthScalar s).map .bool
  else if tag = coreTag "int" then some fun s => (wholeScalar s).map .int
  else if tag = coreTag "float" then some fun s => (realScalar s).map .real
  else if tag = coreTag "binary" then some fun s =>
    if s.toList.all (·.toNat < 128) then (sixBitBytes s.toList 0 0 0 []).map .bytes
    else .error .malformed
  else if tag = coreTag "timestamp" then some timeScalar
  else if tag = coreTag "str" then some fun s => .ok (.text s)
  else none

end IngressBench.Yaml
