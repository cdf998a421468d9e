import IngressBench.Decimal.Reading
import IngressBench.Document

/-!
Reading JSON texts. Besides the standard's values a text may hold `NaN`, `Infinity` and
`-Infinity`; a name given twice keeps its first place and its last value. A text that cannot be read
is refused with the problem and its position, counted in characters from zero.
-/
namespace IngressBench.Json

open Text

/-! ### Refusals -/

/-- What is wrong with a text. -/
inductive Problem where
  | mark
  | value
  | name
  | colon
  | comma
  | openText
  | control
  | escape
  | codeUnit
  | extra
deriving Repr, DecidableEq

/-- The sentence for a problem. -/
def Problem.sentence : Problem → String
  | mark => "Unexpected UTF-8 BOM (decode using utf-8-sig)"
  | value => "Expecting value"
  | name => "Expecting property name enclosed in double quotes"
  | colon => "Expecting ':' delimiter"
  | comma => "Expecting ',' delimiter"
  | openText => "Unterminated string starting at"
  | control => "Invalid control character at"
  | escape => "Invalid \\escape"
  | codeUnit => "Invalid \\uXXXX escape"
  | extra => "Extra data"

/-- Why a text is refused. -/
inductive Fault where
  /-- The text is no JSON from a position on. -/
  | problem (what : Problem) (position : Nat)
  /-- A whole number has more digits than are read. -/
  | digits (count : Nat)
deriving Repr, DecidableEq

/-- The sentence about a whole number with too many digits. -/
def tooManyDigits (count : Nat) : String :=
  s!"Exceeds the limit ({digitLimit} digits) for integer string conversion: value has {count} " ++
    "digits; use sys.set_int_max_str_digits() to increase the limit"

/-- The sentence for a refusal of `text`: problems are placed by line and column, from one. -/
def Fault.message (text : List Char) : Fault → String
  | problem what position =>
    let before := text.take position
    let line := before.count '\n' + 1
    let column := (before.reverse.takeWhile (· ≠ '\n')).length + 1
    s!"{what.sentence}: line {line} column {column} (char {position})"
  | digits count => tooManyDigits count

/-! ### Places -/

/-- The characters that are left, and how many came before. -/
structure Place where
  rest : List Char
  position : Nat

def Place.fail {α : Type} (p : Place) (what : Problem) : Except Fault α :=
  .error (.problem what p.position)

def isSpace (c : Char) : Bool :=
  c == ' ' || c == '\t' || c == '\n' || c == '\r'

/-- The place after the longest start of blanks. -/
def Place.afterSpace (p : Place) : Place :=
  go p.rest p.position
where
  go : List Char → Nat → Place
    | [], n => ⟨[], n⟩
    | c :: rest, n => if isSpace c then go rest (n + 1) else ⟨c :: rest, n⟩

/-- The place after a word, if the word comes next. -/
def Place.afterWord (p : Place) (word : String) : Option Place :=
  let letters := word.toList
  if letters.isPrefixOf p.rest then
    some ⟨p.rest.drop letters.length, p.position + letters.length⟩
  else none

/-! ### Texts -/

/-- The value of a hexadecimal digit. -/
def hexDigit? (c : Char) : Option Nat :=
  if '0' ≤ c ∧ c ≤ '9' then some (c.toNat - '0'.toNat)
  else if 'a' ≤ c ∧ c ≤ 'f' then some (c.toNat - 'a'.toNat + 10)
  else if 'A' ≤ c ∧ c ≤ 'F' then some (c.toNat - 'A'.toNat + 10)
  else none

/-- Four hexadecimal digits as a code unit. -/
def codeUnit? (s : List Char) : Option Nat :=
  let digits := s.take 4
  if digits.length < 4 then none
  else (digits.mapM hexDigit?).map fun ds => ds.foldl (fun n d => 16 * n + d) 0

def isHighHalf (unit : Nat) : Bool := 0xD800 ≤ unit && unit ≤ 0xDBFF

def isLowHalf (unit : Nat) : Bool := 0xDC00 ≤ unit && unit ≤ 0xDFFF

/-- The character of a code unit; a half of a pair on its own is the replacement character. -/
def unitChar (unit : Nat) : Char :=
  if 0xD800 ≤ unit ∧ unit ≤ 0xDFFF then '\uFFFD' else Char.ofNat unit

/-- The character behind a one-letter escape. -/
def escapeChar? : Char → Option Char
  | '"' => some '"'
  | '\\' => some '\\'
  | '/' => some '/'
  | 'b' => some '\x08'
  | 'f' => some '\x0c'
  | 'n' => some '\n'
  | 'r' => some '\r'
  | 't' => some '\t'
  | _ => none

/-- The character of a code unit escape whose digits come first in `s`, and how many characters the
escape has from there on: four, or ten with the second half of a pair. The digits count only when
another character follows them. `position` is the place of the letter in front of the digits. -/
def unitEscape (s : List Char) (position : Nat) : Except Fault (Char × Nat) :=
  match if (s.drop 4).isEmpty then none else codeUnit? s with
  | none => .error (.problem .codeUnit position)
  | some unit =>
    match isHighHalf unit, s.drop 4 with
    | true, '\\' :: 'u' :: more =>
      if (more.drop 4).isEmpty then .ok (unitChar unit, 4)
      else
        match codeUnit? more with
        | none => .error (.problem .codeUnit (position + 6))
        | some low =>
          if isLowHalf low then
            .ok (Char.ofNat (0x10000 + (unit - 0xD800) * 0x400 + (low - 0xDC00)), 10)
          else .ok (unitChar unit, 4)
    | _, _ => .ok (unitChar unit, 4)

/-- A text after its opening quote, which stands at `start`. The characters read so far come in
reverse order. -/
def textTail (start : Nat) (s : List Char) (position : Nat) (acc : List Char) :
    Except Fault (String × Place) :=
  match s with
  | [] => .error (.problem .openText start)
  | '"' :: rest => .ok (String.ofList acc.reverse, ⟨rest, position + 1⟩)
  | '\\' :: [] => .error (.problem .openText start)
  | '\\' :: 'u' :: rest =>
    match unitEscape rest (position + 1) with
    | .error fault => .error fault
    | .ok (c, count) => textTail start (rest.drop count) (position + 2 + count) (c :: acc)
  | '\\' :: c :: rest =>
    match escapeChar? c with
    | some e => textTail start rest (position + 2) (e :: acc)
    | none => .error (.problem .escape position)
  | c :: rest =>
    if c.toNat ≤ 0x1f then .error (.problem .control position)
    else textTail start rest (position + 1) (c :: acc)
termination_by s.length
decreasing_by all_goals (simp; try omega)

/-! ### Numbers -/

/-- The ASCII digits at the start of a text, and what follows. -/
def digitSpan (s : List Char) : List Char × List Char :=
  (s.takeWhile Char.isDigit, s.dropWhile Char.isDigit)

/-- The fraction at the start of a text: a point and at least one digit. -/
def fractionSpan (s : List Char) : List Char × List Char :=
  match s with
  | '.' :: rest =>
    match digitSpan rest with
    | ([], _) => ([], s)
    | found => found
  | _ => ([], s)

/-- The exponent at the start of a text, a letter, a sign and at least one digit, and how many
characters it has. -/
def exponentSpan (s : List Char) : Option (Int × Nat) × List Char :=
  match s with
  | c :: rest =>
    if c = 'e' ∨ c = 'E' then
      let (negative, digits) := signed rest
      match digitSpan digits with
      | ([], _) => (none, s)
      | (ds, tail) =>
        let n : Int := asciiNumber ds
        let mark := if rest.head? = digits.head? then 1 else 2
        (some (if negative then -n else n, mark + ds.length), tail)
    else (none, s)
  | [] => (none, s)

/-- Whether a count of digits is above a limit. -/
def exceeds (limit : Option Nat) (count : Nat) : Bool :=
  match limit with
  | some most => count > most
  | none => false

/-- A number; whole numbers of more than `limit` digits are refused. -/
def number (limit : Option Nat) (p : Place) : Except Fault (Document × Place) :=
  let (negative, body) := match p.rest with
    | '-' :: rest => (true, rest)
    | s => (false, s)
  let (whole, rest) := match body with
    | '0' :: rest => (['0'], rest)
    | s => digitSpan s
  if whole.isEmpty then p.fail .value
  else
    let (fraction, rest) := fractionSpan rest
    let (exponent, rest) := exponentSpan rest
    let width := (if negative then 1 else 0) + whole.length +
      (if fraction.isEmpty then 0 else 1 + fraction.length) + (exponent.map Prod.snd).getD 0
    let place : Place := ⟨rest, p.position + width⟩
    if fraction.isEmpty && exponent.isNone then
      if exceeds limit whole.length then .error (.digits whole.length)
      else
        let n : Int := asciiNumber whole
        .ok (.int (if negative then -n else n), place)
    else
      let digits := asciiNumber (whole ++ fraction)
      let power := (exponent.map Prod.fst).getD 0 - fraction.length
      .ok (.real (nearestDecimal negative digits power), place)

/-- The words for values, and the values. -/
def words : List (String × Document) :=
  [("null", .null), ("true", .bool true), ("false", .bool false), ("NaN", .real (0.0 / 0.0)),
    ("Infinity", .real (1.0 / 0.0)), ("-Infinity", .real (-(1.0 / 0.0)))]

/-- The value of the word that comes next, if there is one. -/
def word? (p : Place) : Option (Document × Place) :=
  words.findSome? fun (word, value) => (p.afterWord word).map fun q => (value, q)

/-! ### Values -/

/-- The name of an entry and the colon after it. -/
def entryName (p : Place) : Except Fault (String × Place) :=
  match p.rest with
  | '"' :: rest => do
    let (name, q) ← textTail p.position rest (p.position + 1) []
    let q := q.afterSpace
    match q.rest with
    | ':' :: rest => return (name, (Place.mk rest (q.position + 1)).afterSpace)
    | _ => q.fail .colon
  | _ => p.fail .name

mutual

/-- The value at a place. Every value and every item or entry takes one unit of `fuel`. At most one
value and one item or entry start at a character, and the last may miss its character, so twice the
length of the text and two are enough. -/
def value (limit : Option Nat) : Nat → Place → Except Fault (Document × Place)
  | 0, p => p.fail .value
  | fuel + 1, p =>
    match p.rest with
    | '"' :: rest => do
      let (s, q) ← textTail p.position rest (p.position + 1) []
      return (.text s, q)
    | '\x7b' :: rest =>
      let q := (Place.mk rest (p.position + 1)).afterSpace
      match q.rest with
      | '\x7d' :: rest => .ok (.map [], ⟨rest, q.position + 1⟩)
      | _ => entries limit fuel q []
    | '[' :: rest =>
      let q := (Place.mk rest (p.position + 1)).afterSpace
      match q.rest with
      | ']' :: rest => .ok (.list [], ⟨rest, q.position + 1⟩)
      | _ => items limit fuel q []
    | _ =>
      match word? p with
      | some found => .ok found
      | none => number limit p

/-- The entries of a mapping from a name on; those read so far come in reverse order. -/
def entries (limit : Option Nat) : Nat → Place → List (Document × Document) → Except Fault (Document × Place)
  | 0, p, _ => p.fail .value
  | fuel + 1, p, acc => do
    let (name, q) ← entryName p
    let (v, q) ← value limit fuel q
    let acc := (.text name, v) :: acc
    let q := q.afterSpace
    match q.rest with
    | '\x7d' :: rest => return (.map (Document.distinct acc.reverse), ⟨rest, q.position + 1⟩)
    | ',' :: rest => entries limit fuel (Place.mk rest (q.position + 1)).afterSpace acc
    | _ => q.fail .comma

/-- The items of a list from an item on; those read so far come in reverse order. -/
def items (limit : Option Nat) : Nat → Place → List Document → Except Fault (Document × Place)
  | 0, p, _ => p.fail .value
  | fuel + 1, p, acc => do
    let (v, q) ← value limit fuel p
    let acc := v :: acc
    let q := q.afterSpace
    match q.rest with
    | ']' :: rest => return (.list acc.reverse, ⟨rest, q.position + 1⟩)
    | ',' :: rest => items limit fuel (Place.mk rest (q.position + 1)).afterSpace acc
    | _ => q.fail .comma

end

/-- The value of a whole text. -/
def ofChars (limit : Option Nat) (s : List Char) : Except Fault Document :=
  match s with
  | '\uFEFF' :: _ => .error (.problem .mark 0)
  | _ => do
    let (v, q) ← value limit (2 * s.length + 2) (Place.mk s 0).afterSpace
    let q := q.afterSpace
    if q.rest.isEmpty then return v else q.fail .extra

/-- The value of a text, or the sentence that refuses it. Whole numbers have up to `digitLimit`
digits. -/
def read (text : String) : Except String Document :=
  (ofChars (some digitLimit) text.toList).mapError fun fault => fault.message text.toList

end IngressBench.Json
