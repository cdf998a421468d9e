import IngressBench.Text.Range

/-!
Names of namespaces. A name is a row of labels with single points between them; a label holds lower
case letters, digits and hyphens, and neither starts nor ends with a hyphen. One line feed at the end
of the name is not looked at, but counts for its length.
-/
namespace IngressBench.Subdomain

/-- A lower case letter or a digit. -/
def isEdge (c : Char) : Bool :=
  ('a' ≤ c && c ≤ 'z') || ('0' ≤ c && c ≤ '9')

def isInner (c : Char) : Bool :=
  isEdge c || c == '-'

/-- Whether characters are a label. -/
def isLabel (s : List Char) : Bool :=
  s.all isInner && (s.head?.any isEdge) && (s.getLast?.any isEdge)

/-- The parts of a text between its points. -/
def labels (s : List Char) : List (List Char) :=
  s.splitOn '.'

/-- Whether characters are labels with single points between them. -/
def isRow (s : List Char) : Bool :=
  (labels s).all isLabel

/-- A text without one line feed at its end. -/
def withoutFeed (s : List Char) : List Char :=
  if s.getLast? = some '\n' then s.dropLast else s

/-- Most characters of a name. -/
def lengthLimit : Nat := 253

/-- Whether a text is accepted as the name of a namespace. -/
def accepts (s : String) : Bool :=
  s.length ≤ lengthLimit && isRow (withoutFeed s.toList)

end IngressBench.Subdomain
