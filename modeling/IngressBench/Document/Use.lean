import IngressBench.Decimal.Reading
import IngressBench.Document.Shown
import IngressBench.Failure

/-!
Using a value for what it should be: a mapping with a name, a list with a position, a number. Every
use of a value of the wrong kind is a failure that tells the kind.
-/
namespace IngressBench
namespace Document

/-- The kind of a value, the way a failure of arithmetic or indexing tells it. -/
def shortKind (d : Document) : String :=
  ((d.kindName.splitOn ".").getLast?).getD ""

/-- The failure of looking inside a value that has no inside. -/
def noInside (d : Document) : Failure :=
  .kind s!"'{d.shortKind}' object is not subscriptable"

/-- The value under a name, which has to be there. -/
def under (d : Document) (name : String) : Except Failure Document :=
  match d with
  | map entries =>
    match find? entries name with
    | some v => .ok v
    | none => .error (.key (Text.quoted name))
  | list _ | listAgain => .error (.kind "list indices must be integers or slices, not str")
  | text _ => .error (.kind "string indices must be integers, not 'str'")
  | d => .error d.noInside

/-- The item at a position, which has to be there. -/
def atPosition (d : Document) (i : Nat) : Except Failure Document :=
  match d with
  | list items =>
    match items[i]? with
    | some v => .ok v
    | none => .error (.position "list index out of range")
  | text s =>
    match s.toList[i]? with
    | some c => .ok (text (String.ofList [c]))
    | none => .error (.position "string index out of range")
  | map entries =>
    match entries.find? fun (k, _) => k.sameKey (int i) with
    | some (_, v) => .ok v
    | none => .error (.key (toString i))
  | d => .error d.noInside

/-- The value under a name of a mapping, nothing when the name is missing; any other value has no
names. -/
def lookUp (d : Document) (name : String) : Except Failure (Option Document) :=
  match d with
  | map entries => .ok (find? entries name)
  | d => .error (.part s!"'{d.shortKind}' object has no attribute 'get'")

/-- The parts of a value that is gone through: items, names or characters. -/
def each (d : Document) : Except Failure (List Document) :=
  match d with
  | list items | set items => .ok items
  | pair a b => .ok [a, b]
  | map entries => .ok (entries.map Prod.fst)
  | text s => .ok (s.toList.map fun c => text (String.ofList [c]))
  | bytes bs => .ok (bs.map fun b => int b.toNat)
  | d => .error (.kind s!"'{d.shortKind}' object is not iterable")

/-- How many parts a value has. -/
def size (d : Document) : Except Failure Nat :=
  match d.each with
  | .ok parts => .ok parts.length
  | .error _ => .error (.kind s!"object of type '{d.shortKind}' has no len()")

/-- The floating-point number of a value. -/
def toFloat (d : Document) : Except Failure Float :=
  match d with
  | number (.int i) =>
    let x := nearestInt i
    if x.isInf then .error (.overflow "int too large to convert to float") else .ok x
  | number (.real x) => .ok x
  | bool b => .ok (if b then 1.0 else 0.0)
  | text s =>
    match readFloat? s with
    | some x => .ok x
    | none => .error (.value s!"could not convert string to float: {Text.quoted s}")
  | d => .error (.kind s!"float() argument must be a string or a real number, not '{d.shortKind}'")

end Document
end IngressBench
