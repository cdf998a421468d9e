import IngressBench.Moment
import IngressBench.Number
import IngressBench.Text.Quoted

/-!
Documents: the values of test-case files, tool outputs and answers of the cluster. A mapping keeps
the order in which its keys first appeared, whatever the keys are; a key given again keeps its place
and takes the later value.
-/
namespace IngressBench

/-- A value of a document. -/
inductive Document where
  | null
  | bool (b : Bool)
  | number (n : Number)
  | text (s : String)
  | bytes (bs : List UInt8)
  | date (year month day : Nat)
  | moment (m : Moment)
  | list (items : List Document)
  | pair (first second : Document)
  | set (items : List Document)
  | map (entries : List (Document × Document))
  /-- An enclosing list met again inside itself. -/
  | listAgain
  /-- An enclosing mapping met again inside itself. -/
  | mapAgain
deriving Inhabited

namespace Document

def int (i : Int) : Document := .number (.int i)

def real (x : Float) : Document := .number (.real x)

/-- A mapping from names. -/
def object (entries : List (String × Document)) : Document :=
  .map (entries.map fun (k, v) => (.text k, v))

/-- A text, or nothing. -/
def ofText? : Option String → Document
  | some s => .text s
  | none => .null

/-! ### Truth -/

/-- Whether a value counts as present: not nothing, false, zero or empty. -/
def truthy : Document → Bool
  | null => false
  | bool b => b
  | number n => !n.isZero
  | text s => !s.isEmpty
  | bytes bs => !bs.isEmpty
  | list items => !items.isEmpty
  | set items => !items.isEmpty
  | map entries => !entries.isEmpty
  | date .. | moment _ | pair .. | listAgain | mapAgain => true

/-! ### Keys -/

/-- The value of a number or a truth value as a key: truth values are the keys 1 and 0. -/
def keyNumber? : Document → Option Number
  | number n => some n
  | bool b => some (.int (if b then 1 else 0))
  | _ => none

/-- Whether two values are one key. -/
def sameKey : Document → Document → Bool
  | null, null => true
  | text s, text t => s == t
  | bytes s, bytes t => s == t
  | date y m d, date y' m' d' => y == y' && m == m' && d == d'
  | moment m, moment m' => m == m'
  | a, b =>
    match a.keyNumber?, b.keyNumber? with
    | some m, some n => m.compare? n == some .eq
    | _, _ => false

/-- Entries with a key set to a value. -/
def put (entries : List (Document × Document)) (key value : Document) : List (Document × Document) :=
  match entries with
  | [] => [(key, value)]
  | (k, v) :: rest => if k.sameKey key then (k, value) :: rest else (k, v) :: put rest key value

/-- Entries with every key once, in the order of first appearance. -/
def distinct (entries : List (Document × Document)) : List (Document × Document) :=
  entries.foldl (fun acc (k, v) => put acc k v) []

/-- The value under a name. -/
def find? (entries : List (Document × Document)) (name : String) : Option Document :=
  match entries with
  | [] => none
  | (.text k, v) :: rest => if k = name then some v else find? rest name
  | _ :: rest => find? rest name

/-- The value under a name, nothing when the value is no mapping or lacks the name. -/
def get? (d : Document) (name : String) : Option Document :=
  match d with
  | map entries => find? entries name
  | _ => none

/-- The value under a name, `null` when there is none. -/
def part (d : Document) (name : String) : Document :=
  (d.get? name).getD .null

/-- The text of a text value. -/
def text? : Document → Option String
  | text s => some s
  | _ => none

/-- The value of a whole number. -/
def int? : Document → Option Int
  | number (.int i) => some i
  | _ => none

/-- The items of a list. -/
def items? : Document → Option (List Document)
  | list items => some items
  | _ => none

/-- The name of the kind of a value, as failures name it. -/
def kindName : Document → String
  | null => "NoneType"
  | bool _ => "bool"
  | number (.int _) => "int"
  | number (.real _) => "float"
  | text _ => "str"
  | bytes _ => "bytes"
  | date .. => "datetime.date"
  | moment _ => "datetime.datetime"
  | list _ | listAgain => "list"
  | pair .. => "tuple"
  | set _ => "set"
  | map _ | mapAgain => "dict"

end Document
end IngressBench
