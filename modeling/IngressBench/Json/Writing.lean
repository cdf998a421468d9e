import IngressBench.Document.Shown

/-!
Writing JSON texts. A text is written in ASCII alone: other characters are code unit escapes, in
pairs above U+FFFF. `text` keeps to one line; `pages` puts every item and entry on a line of its
own, indented by two blanks a level, and leaves empty lists and mappings closed. A value without a
form of its own is written as a text; a name without one, or a value inside itself, is a flaw that
ends the writing.
-/
namespace IngressBench.Json

open Text

/-- A code unit as an escape. -/
def unitText (unit : Nat) : List Char :=
  '\\' :: 'u' :: hex 4 unit

/-- One character between quotes. -/
def charText (c : Char) : List Char :=
  let point := c.toNat
  if c = '"' then ['\\', '"']
  else if c = '\\' then ['\\', '\\']
  else if c = '\n' then ['\\', 'n']
  else if c = '\r' then ['\\', 'r']
  else if c = '\t' then ['\\', 't']
  else if point = 0x8 then ['\\', 'b']
  else if point = 0xc then ['\\', 'f']
  else if 0x20 ≤ point ∧ point < 0x7f then [c]
  else if point ≤ 0xffff then unitText point
  else unitText (0xd800 + (point - 0x10000) / 0x400) ++ unitText (0xdc00 + (point - 0x10000) % 0x400)

/-- A text between quotes. -/
def quotedText (s : String) : String :=
  String.ofList ('"' :: s.toList.flatMap charText ++ ['"'])

/-- A number. -/
def numberText : Number → String
  | .int i => toString i
  | .real x => Layout.json.text x

/-! ### Pieces -/

/-- Why a value cannot be written. -/
inductive Flaw where
  /-- A name of a kind that names nothing. -/
  | name (kind : String)
  /-- A value inside itself. -/
  | cycle
deriving Repr, DecidableEq

/-- The sentence for a flaw. -/
def Flaw.message : Flaw → String
  | name kind => s!"keys must be str, int, float, bool or None, not {kind}"
  | cycle => "Circular reference detected"

/-- A part of what is written. -/
inductive Piece where
  | text (s : String)
  | flaw (f : Flaw)

/-- A text and behind it the pieces in front of the first flaw, and that flaw. -/
def writtenAfter (start : String) : List Piece → String × Option Flaw
  | [] => (start, none)
  | .flaw f :: _ => (start, some f)
  | .text s :: rest => writtenAfter (start ++ s) rest

/-- The text in front of the first flaw, and that flaw. -/
def written (row : List Piece) : String × Option Flaw :=
  writtenAfter "" row

/-- What stood there before stays in front. -/
theorem writtenAfter_append (start middle : String) (row : List Piece) :
    writtenAfter (start ++ middle) row =
      (start ++ (writtenAfter middle row).1, (writtenAfter middle row).2) := by
  induction row generalizing middle with
  | nil => rfl
  | cons piece rest ih =>
    cases piece with
    | flaw f => rfl
    | text s => simp [writtenAfter, String.append_assoc, ih]

theorem written_text (s : String) (rest : List Piece) :
    written (.text s :: rest) = (s ++ (written rest).1, (written rest).2) := by
  simpa [written, writtenAfter] using writtenAfter_append s "" rest

/-- The name of an entry. -/
def namePiece : Document → Piece
  | .text s => .text (quotedText s)
  | .null => .text "\"null\""
  | .bool b => .text (if b then "\"true\"" else "\"false\"")
  | .number n => .text (quotedText (numberText n))
  | d => .flaw (.name ((d.kindName.splitOn ".").getLast?.getD ""))

/-- Where items start: on the same line, or on a new line at a depth. -/
def lineBreak (indented : Bool) (depth : Nat) : String :=
  if indented then "\n" ++ "".pushn ' ' (2 * depth) else ""

/-- The separator in front of an item that is not the first. -/
def separator (indented : Bool) (depth : Nat) : String :=
  if indented then "," ++ lineBreak true depth else ", "

/-- The name of an entry that is not the first. Nothing is written in front of a flaw: whether there
is a text for the name is settled before the separator. -/
def nextName (indented : Bool) (depth : Nat) (k : Document) : List Piece :=
  match namePiece k with
  | .text s => [.text (separator indented depth), .text s]
  | .flaw f => [.flaw f]

mutual

/-- A value at a depth. -/
def pieces (indented : Bool) (depth : Nat) : Document → List Piece
  | .null => [.text "null"]
  | .bool b => [.text (if b then "true" else "false")]
  | .number n => [.text (numberText n)]
  | .text s => [.text (quotedText s)]
  | .list [] => [.text "[]"]
  | .list (d :: rest) =>
    .text ("[" ++ lineBreak indented (depth + 1)) ::
      (pieces indented (depth + 1) d ++ itemPieces indented (depth + 1) rest ++
        [.text (lineBreak indented depth ++ "]")])
  | .pair a b =>
    .text ("[" ++ lineBreak indented (depth + 1)) ::
      (pieces indented (depth + 1) a ++ .text (separator indented (depth + 1)) ::
        (pieces indented (depth + 1) b ++ [.text (lineBreak indented depth ++ "]")]))
  | .map [] => [.text "\x7b\x7d"]
  | .map ((k, v) :: rest) =>
    .text ("\x7b" ++ lineBreak indented (depth + 1)) :: namePiece k :: .text ": " ::
      (pieces indented (depth + 1) v ++ entryPieces indented (depth + 1) rest ++
        [.text (lineBreak indented depth ++ "\x7d")])
  | .listAgain | .mapAgain => [.flaw .cycle]
  | d => [.text (quotedText d.plain)]

def itemPieces (indented : Bool) (depth : Nat) : List Document → List Piece
  | [] => []
  | d :: rest =>
    .text (separator indented depth) ::
      (pieces indented depth d ++ itemPieces indented depth rest)

def entryPieces (indented : Bool) (depth : Nat) : List (Document × Document) → List Piece
  | [] => []
  | (k, v) :: rest =>
    nextName indented depth k ++ .text ": " ::
      (pieces indented depth v ++ entryPieces indented depth rest)

end

/-- A value on one line, up to its first flaw. -/
def text (d : Document) : String :=
  (written (pieces false 0 d)).1

/-- A value with a line for every item and entry, and its first flaw. -/
def pages (d : Document) : String × Option Flaw :=
  written (pieces true 0 d)

end IngressBench.Json
