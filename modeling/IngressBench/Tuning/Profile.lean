import IngressBench.Failure
import IngressBench.Json.Reading

/-!
Tuning profiles: options between commas, each a name and a value around the first `=`. A value of
digits, with any hyphens in front, is meant as a whole number; every other value is a text. An option
given again keeps its place and takes the later value.
-/
namespace IngressBench.Profile

open Text

/-- Options with an option set to a value. -/
def put (options : List (String × Document)) (name : String) (value : Document) :
    List (String × Document) :=
  match options with
  | [] => [(name, value)]
  | (n, v) :: rest => if n = name then (n, value) :: rest else (n, v) :: put rest name value

/-- The parts of a text in front of and behind the first `=`, nothing when there is none. -/
def halves? (item : List Char) : Option (List Char × List Char) :=
  match item.span (· != '=') with
  | (_, []) => none
  | (name, _ :: value) => some (name, value)

/-- Whether a value is meant as a whole number. -/
def looksWhole (value : List Char) : Bool :=
  let digits := value.dropWhile (· == '-')
  !digits.isEmpty && digits.all isDigit

/-- Most characters of a value that a refusal shows. -/
def shownLimit : Nat := 200

/-- The whole number of a value that is meant as one. -/
def wholeValue (value : List Char) : Except Failure Int :=
  match readInt? (String.ofList value) with
  | some i =>
    let digits := (value.filter isDecimal).length
    if digits > digitLimit then .error (.value (Json.tooManyDigits digits)) else .ok i
  | none =>
    let shown := (quoted (String.ofList value)).toList.take shownLimit
    .error (.value ("invalid literal for int() with base 10: " ++ String.ofList shown))

/-- The value of an option. -/
def optionValue (value : List Char) : Except Failure Document :=
  if looksWhole value then (wholeValue value).map Document.int
  else .ok (.text (String.ofList value))

/-- The name and the value of an item, nothing when one of them is missing. -/
def option? (item : List Char) : Option (List Char × List Char) := do
  let (name, value) ← halves? item
  let name := trim name
  let value := trim value
  if name.isEmpty || value.isEmpty then none else some (name, value)

/-- The options of items that are not blank, added to earlier ones. -/
def optionsOf (profile : String) (options : List (String × Document)) :
    List (List Char) → Except Failure (List (String × Document))
  | [] => .ok options
  | item :: rest =>
    match option? item with
    | none => .error (.tuning (.badOption (String.ofList item) profile))
    | some (name, value) => do
      let value ← optionValue value
      optionsOf profile (put options (String.ofList name) value) rest

/-- The items of a profile that are not blank, without the blanks around them. -/
def items (profile : String) : List (List Char) :=
  ((profile.toList.splitOn ',').map trim).filter fun item => !item.isEmpty

/-- The options of a profile; there is at least one. -/
def read (profile : String) : Except Failure (List (String × Document)) := do
  let options ← optionsOf profile [] (items profile)
  if options.isEmpty then throw (.tuning (.emptyProfile profile))
  return options

end IngressBench.Profile
