import IngressBench.Text.Digit
import IngressBench.Yaml.Token

/-!
The nodes of a YAML text. Nodes are numbered, and collections hold the numbers of their members, so a
node can stand at several places, also inside itself. Every node has a tag; a plain scalar without
one gets the tag that its text has the form of.
-/
namespace IngressBench.Yaml

/-! ### Tags -/

/-- A tag of the core set. -/
def coreTag (name : String) : String :=
  "tag:yaml.org,2002:" ++ name

/-- The words for yes and for no. -/
def truthWords : List (String × Bool) :=
  [("yes", true), ("no", false), ("true", true), ("false", false), ("on", true), ("off", false)]

/-- A word in lower case, with a capital, or in upper case. -/
def wordForms (word : String) : List String :=
  [word, String.ofList (word.toList.mapIdx fun i c => if i = 0 then c.toUpper else c),
    word.map Char.toUpper]

def isTruthWord (s : List Char) : Bool :=
  truthWords.any fun (word, _) => (wordForms word).contains (String.ofList s)

def isNullWord (s : List Char) : Bool :=
  s.isEmpty || s == ['~'] || (wordForms "null").contains (String.ofList s)

/-! ### Forms of scalars -/

def isSign (c : Char) : Bool := c == '-' || c == '+'

/-- A text without a sign in front. -/
def unsigned : List Char → List Char
  | c :: rest => if isSign c then rest else c :: rest
  | [] => []

def isDigitOrBar (c : Char) : Bool := c.isDigit || c == '_'

/-- Nothing, or the letter of an exponent, a sign and digits. -/
def isExponent : List Char → Bool
  | [] => true
  | e :: sign :: rest =>
    (e == 'e' || e == 'E') && isSign sign && !rest.isEmpty && rest.all Char.isDigit
  | _ => false

/-- A digit, and digits and underscores; with what follows. -/
def digitsAndBars : List Char → Option (List Char)
  | c :: rest => if c.isDigit then some (rest.dropWhile isDigitOrBar) else none
  | [] => none

/-- Groups of a colon and a number below sixty, at least one when `need`; with what follows. -/
def sixties : Nat → Bool → List Char → Option (List Char)
  | 0, _, _ => none
  | fuel + 1, need, s =>
    match s with
    | ':' :: a :: b :: rest =>
      if a.isDigit && b.isDigit && a ≤ '5' then sixties fuel false rest
      else if a.isDigit then sixties fuel false (b :: rest)
      else none
    | [':', a] => if a.isDigit then some [] else none
    | s => if need then none else some s

/-- The text of a number with a point, an infinity, or not a number. -/
def isRealForm (s : List Char) : Bool :=
  let body := unsigned s
  let infinities := (wordForms "inf").map fun w => '.' :: w.toList
  let notNumbers := [".nan", ".NaN", ".NAN"].map String.toList
  infinities.contains body || notNumbers.contains s ||
    (match digitsAndBars body with
      | some ('.' :: rest) => isExponent (rest.dropWhile isDigitOrBar)
      | some rest =>
        match sixties (rest.length + 1) true rest with
        | some ('.' :: tail) => tail.all isDigitOrBar
        | _ => false
      | none => false) ||
    (match s with
      | '.' :: rest =>
        match digitsAndBars rest with
        | some tail => isExponent tail
        | none => false
      | _ => false)

/-- The text of a whole number to base two, eight, ten, sixteen or sixty. -/
def isWholeForm (s : List Char) : Bool :=
  match unsigned s with
  | '0' :: 'b' :: rest => !rest.isEmpty && rest.all fun c => c == '0' || c == '1' || c == '_'
  | '0' :: 'x' :: rest =>
    !rest.isEmpty && rest.all fun c =>
      c.isDigit || c == '_' || ('a' ≤ c && c ≤ 'f') || ('A' ≤ c && c ≤ 'F')
  | '0' :: rest => rest.all fun c => ('0' ≤ c && c ≤ '7') || c == '_'
  | c :: rest =>
    if c.isDigit then
      let tail := rest.dropWhile isDigitOrBar
      tail.isEmpty || sixties (tail.length + 1) true tail == some []
    else false
  | [] => false

/-! ### Points in time -/

/-- The parts of a point in time, in digits. -/
structure TimeParts where
  year : List Char
  month : List Char
  day : List Char
  /-- Hour, minute, second, fraction and the distance from universal time. -/
  clock : Option (List Char × List Char × List Char × List Char × List Char)

/-- At least `least` and at most `most` digits, as many as there are; with what follows. -/
def digitGroup (least most : Nat) (s : List Char) : Option (List Char × List Char) :=
  let ds := (s.take most).takeWhile Char.isDigit
  if ds.length < least then none else some (ds, s.drop ds.length)

/-- The rest of a text after a character. -/
def after? (c : Char) : List Char → Option (List Char)
  | d :: rest => if d == c then some rest else none
  | [] => none

/-- Whether a text is a distance from universal time, or nothing. -/
def isDistance (s : List Char) : Bool :=
  match s with
  | [] | ['Z'] => true
  | sign :: rest =>
    isSign sign &&
      match digitGroup 1 2 rest with
      | some (_, []) => true
      | some (_, ':' :: minutes) => minutes.length == 2 && minutes.all Char.isDigit
      | _ => false

/-- The parts of a text that has the form of a point in time. -/
def timeParts? (s : List Char) : Option TimeParts := do
  let (year, s) ← digitGroup 4 4 s
  let (month, s) ← digitGroup 1 2 (← after? '-' s)
  let (day, s) ← digitGroup 1 2 (← after? '-' s)
  if s.isEmpty then return ⟨year, month, day, none⟩
  let s ← match s with
    | c :: rest =>
      if c == 'T' || c == 't' then some rest
      else if c == ' ' || c == '\t' then some (rest.dropWhile fun c => c == ' ' || c == '\t')
      else none
    | [] => none
  let (hour, s) ← digitGroup 1 2 s
  let (minute, s) ← digitGroup 2 2 (← after? ':' s)
  let (second, s) ← digitGroup 2 2 (← after? ':' s)
  let (fraction, s) := match s with
    | '.' :: rest => (rest.takeWhile Char.isDigit, rest.dropWhile Char.isDigit)
    | s => ([], s)
  let distance := s.dropWhile fun c => c == ' ' || c == '\t'
  if isDistance distance && (s.length == distance.length || !distance.isEmpty) then
    return ⟨year, month, day, some (hour, minute, second, fraction, distance)⟩
  else none

/-- The text of a point in time; a date alone has two digits for month and day. -/
def isTimeForm (s : List Char) : Bool :=
  match timeParts? s with
  | some p => p.clock.isSome || (p.month.length == 2 && p.day.length == 2)
  | none => false

/-- The tag of a plain scalar without one. -/
def implicitTag (text : String) : String :=
  let s := text.toList
  coreTag <|
    if isTruthWord s then "bool"
    else if isRealForm s then "float"
    else if isWholeForm s then "int"
    else if s == ['<', '<'] then "merge"
    else if isNullWord s then "null"
    else if isTimeForm s then "timestamp"
    else if s == ['='] then "value"
    else "str"

/-! ### Nodes -/

/-- What a node holds; members are numbers of nodes. -/
inductive Content where
  | scalar (text : String)
  | sequence (items : List Nat)
  | mapping (entries : List (Nat × Nat))
deriving Repr, DecidableEq, Inhabited

/-- A node. -/
structure Node where
  tag : String
  content : Content
deriving Repr, DecidableEq, Inhabited

end IngressBench.Yaml
