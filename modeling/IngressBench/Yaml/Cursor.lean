/-!
A place in a YAML text. Lines end at a line feed, a carriage return, both together, a next-line
character or one of the two Unicode separators. The character NUL stands for the end of the text; a
text never holds it.
-/
namespace IngressBench.Yaml

/-- The character that stands for the end of a text. -/
def endMark : Char := '\x00'

def isBreak (c : Char) : Bool :=
  c == '\n' || c == '\r' || c == '\u0085' || c == '\u2028' || c == '\u2029'

/-- A line break or the end. -/
def isBreakOrEnd (c : Char) : Bool :=
  c == endMark || isBreak c

/-- A blank, a line break or the end. -/
def isSpaceOrEnd (c : Char) : Bool :=
  c == ' ' || isBreakOrEnd c

/-- A blank, a tab, a line break or the end. -/
def isGap (c : Char) : Bool :=
  c == '\t' || isSpaceOrEnd c

/-- A letter, a digit, a hyphen or an underscore. -/
def isNameChar (c : Char) : Bool :=
  c.isAlphanum || c == '-' || c == '_'

/-- Characters that a text may hold. -/
def isAllowed (c : Char) : Bool :=
  let point := c.toNat
  point == 0x9 || point == 0xA || point == 0xD || (0x20 ≤ point && point ≤ 0x7E) ||
    point == 0x85 || (0xA0 ≤ point && point ≤ 0xFFFD) || 0x10000 ≤ point

/-- The characters that are left, and where they start. -/
structure Cursor where
  rest : List Char
  index : Nat := 0
  line : Nat := 0
  column : Nat := 0
deriving Repr

namespace Cursor

/-- The character `k` places on. -/
def peekAt (c : Cursor) (k : Nat) : Char :=
  (c.rest.drop k).headD endMark

/-- The next character. -/
def peek (c : Cursor) : Char :=
  c.rest.headD endMark

/-- The place after the next character. -/
def step (c : Cursor) : Cursor :=
  match c.rest with
  | [] => c
  | ch :: rest =>
    if (isBreak ch && ch != '\r') || (ch == '\r' && rest.headD endMark != '\n') then
      ⟨rest, c.index + 1, c.line + 1, 0⟩
    else ⟨rest, c.index + 1, c.line, if ch == '\uFEFF' then c.column else c.column + 1⟩

/-- The place `n` characters on. -/
def advance : Nat → Cursor → Cursor
  | 0, c => c
  | n + 1, c => advance n c.step

/-- The longest start of characters that satisfy `p`. -/
def span (p : Char → Bool) (c : Cursor) : List Char × Cursor :=
  let taken := c.rest.takeWhile p
  (taken, c.advance taken.length)

/-- The place after the longest start of characters that satisfy `p`. -/
def skip (p : Char → Bool) (c : Cursor) : Cursor :=
  (c.span p).2

/-- A line break, if one comes next: what it stands for, and the place after it. -/
def lineBreak (c : Cursor) : List Char × Cursor :=
  let ch := c.peek
  if ch == '\r' || ch == '\n' || ch == '\u0085' then
    (['\n'], if ch == '\r' && c.peekAt 1 == '\n' then c.advance 2 else c.step)
  else if ch == '\u2028' || ch == '\u2029' then ([ch], c.step)
  else ([], c)

/-- Whether the next characters are a row of three equal marks and a gap. -/
def atRow (mark : Char) (c : Cursor) : Bool :=
  c.peek == mark && c.peekAt 1 == mark && c.peekAt 2 == mark && isGap (c.peekAt 3)

/-- Whether a document starts or ends here, on the first column. -/
def atSeparator (c : Cursor) : Bool :=
  c.atRow '-' || c.atRow '.'

end Cursor
end IngressBench.Yaml
