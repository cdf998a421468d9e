import IngressBench.Text.Blank

/-!
Lines of a text.
-/
namespace IngressBench.Text

/-- A text whose lines all end with a line feed. -/
def plainLines : List Char → List Char
  | '\r' :: '\n' :: rest => '\n' :: plainLines rest
  | '\r' :: rest => '\n' :: plainLines rest
  | c :: rest => c :: plainLines rest
  | [] => []

/-- A blank that does not end the line. -/
def isInlineBlank (c : Char) : Bool :=
  isBlank c && c != '\r' && c != '\n'

/-- The text behind the end of the line. -/
def nextLine : List Char → List Char
  | [] => []
  | '\n' :: rest => rest
  | _ :: rest => nextLine rest

end IngressBench.Text
