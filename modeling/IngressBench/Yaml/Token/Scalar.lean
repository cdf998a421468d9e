import IngressBench.Json.Reading
import IngressBench.Yaml.Token

/-!
The texts of scalars: plain, between quotes, and in blocks. A text over several lines is folded: a
single line break becomes a blank, and of more breaks the first is dropped.
-/
namespace IngressBench.Yaml

/-- The folded form of a line break and the breaks after it. -/
def folded (first breaks : List Char) : List Char :=
  if first ≠ ['\n'] then first ++ breaks
  else if breaks.isEmpty then [' ']
  else breaks

/-! ### Plain scalars -/

/-- Whether a plain scalar ends at `c`, which `next` follows. -/
def endsPlain (flow : Bool) (c next : Char) : Bool :=
  isGap c ||
    (c == ':' && (isGap next || (flow && (",[]\x7b\x7d".toList.contains next)))) ||
    (flow && (",?[]\x7b\x7d".toList.contains c))

/-- The characters up to the next end of a plain scalar. -/
def plainRun (flow : Bool) : List Char → List Char
  | [] => []
  | c :: rest => if endsPlain flow c (rest.headD endMark) then [] else c :: plainRun flow rest

/-- The line breaks and blanks between the lines of a plain scalar; none at a document separator. -/
def plainBreaks : Nat → Cursor → List Char → Option (List Char) × Cursor
  | 0, c, breaks => (some breaks, c)
  | fuel + 1, c, breaks =>
    if c.peek == ' ' then plainBreaks fuel c.step breaks
    else if isBreak c.peek then
      let (b, c) := c.lineBreak
      if c.atSeparator then (none, c) else plainBreaks fuel c (breaks ++ b)
    else (some breaks, c)

/-- What separates two parts of a plain scalar, and whether a line ended. The separation is empty at
the end of the scalar. -/
def plainGap (c : Cursor) : List Char × Bool × Cursor :=
  let (blanks, c) := c.span (· == ' ')
  if isBreak c.peek then
    let (first, c) := c.lineBreak
    if c.atSeparator then ([], true, c)
    else
      match plainBreaks (c.rest.length + 1) c [] with
      | (none, c) => ([], true, c)
      | (some breaks, c) => (folded first breaks, true, c)
  else (blanks, false, c)

/-- A plain scalar: its text, whether its last gap held a line break, and the place after it. -/
def plainScalar (flow : Bool) (indent : Nat) :
    Nat → Cursor → List Char → List Char → Bool → List Char × Bool × Cursor
  | 0, c, acc, _, broke => (acc, broke, c)
  | fuel + 1, c, acc, gap, broke =>
    if c.peek == '#' then (acc, broke, c)
    else
      let run := plainRun flow c.rest
      if run.isEmpty then (acc, broke, c)
      else
        let acc := acc ++ gap ++ run
        let (gap, broke, c) := plainGap (c.advance run.length)
        if gap.isEmpty || c.peek == '#' || (!flow && c.column < indent) then (acc, broke, c)
        else plainScalar flow indent fuel c acc gap broke

/-! ### Quoted scalars -/

/-- The character behind an escape of one letter. -/
def escapeLetter? : Char → Option Char
  | '0' => some '\x00'
  | 'a' => some '\x07'
  | 'b' => some '\x08'
  | 't' | '\t' => some '\t'
  | 'n' => some '\n'
  | 'v' => some '\x0b'
  | 'f' => some '\x0c'
  | 'r' => some '\r'
  | 'e' => some '\x1b'
  | ' ' => some ' '
  | '"' => some '"'
  | '\\' => some '\\'
  | '/' => some '/'
  | 'N' => some '\u0085'
  | '_' => some '\u00a0'
  | 'L' => some '\u2028'
  | 'P' => some '\u2029'
  | _ => none

/-- How many hexadecimal digits follow an escape letter. -/
def escapeWidth? : Char → Option Nat
  | 'x' => some 2
  | 'u' => some 4
  | 'U' => some 8
  | _ => none

/-- The number that hexadecimal digits stand for. -/
def hexNumber? (s : List Char) : Option Nat :=
  (s.mapM Json.hexDigit?).map fun ds => ds.foldl (fun n d => 16 * n + d) 0

/-- The line breaks inside a quoted scalar, with blanks around them. -/
def quotedBreaks : Nat → Cursor → List Char → Except Fault (List Char × Cursor)
  | 0, c, acc => .ok (acc, c)
  | fuel + 1, c, acc =>
    if c.atSeparator then .error .malformed
    else
      let c := c.skip fun ch => ch == ' ' || ch == '\t'
      if isBreak c.peek then
        let (b, c) := c.lineBreak
        quotedBreaks fuel c (acc ++ b)
      else .ok (acc, c)

/-- An escape after its backslash. -/
def quotedEscape (c : Cursor) : Except Fault (List Char × Cursor) :=
  let ch := c.peek
  match escapeLetter? ch, escapeWidth? ch with
  | some e, _ => .ok ([e], c.step)
  | none, some width =>
    let c := c.step
    let digits := c.rest.take width
    match if digits.length < width then none else hexNumber? digits with
    | none => .error .malformed
    | some code =>
      if code > 0x10ffff then .error (.value "chr() arg not in range(0x110000)")
      else .ok ([Json.unitChar code], c.advance width)
  | none, none =>
    if isBreak ch then
      let (_, c) := c.lineBreak
      quotedBreaks (c.rest.length + 1) c []
    else .error .malformed

/-- The characters of a quoted scalar after its opening quote, and the place after the closing
one. -/
def quotedScalar (double : Bool) : Nat → Cursor → List Char → Except Fault (List Char × Cursor)
  | 0, _, _ => .error .malformed
  | fuel + 1, c, acc =>
    let ch := c.peek
    if ch == endMark && c.rest.isEmpty then .error .malformed
    else if !double && ch == '\'' && c.peekAt 1 == '\'' then
      quotedScalar double fuel (c.advance 2) (acc ++ ['\''])
    else if ch == (if double then '"' else '\'') then .ok (acc, c.step)
    else if double && ch == '\\' then do
      let (part, c) ← quotedEscape c.step
      quotedScalar double fuel c (acc ++ part)
    else if ch == ' ' || ch == '\t' || isBreak ch then do
      let (blanks, c) := c.span fun ch => ch == ' ' || ch == '\t'
      if isBreak c.peek then
        let (first, c) := c.lineBreak
        let (breaks, c) ← quotedBreaks (c.rest.length + 1) c []
        quotedScalar double fuel c (acc ++ folded first breaks)
      else if c.rest.isEmpty then .error .malformed
      else quotedScalar double fuel c (acc ++ blanks)
    else
      let (run, c) := c.span fun ch =>
        !(ch == '\'' || ch == '"' || ch == '\\' || ch == ' ' || ch == '\t' || isBreak ch)
      if run.isEmpty then quotedScalar double fuel c.step (acc ++ [ch])
      else quotedScalar double fuel c (acc ++ run)

/-! ### Block scalars -/

/-- What happens to the line breaks at the end of a block. -/
inductive Chomp where
  | strip
  | clip
  | keep
deriving Repr, DecidableEq

def chompOf? : Char → Option Chomp
  | '+' => some .keep
  | '-' => some .strip
  | _ => none

/-- The digit of an indentation, which is not zero. -/
def indentDigit (c : Cursor) : Except Fault (Option Nat × Cursor) :=
  match Text.asciiDigit? c.peek with
  | some 0 => .error .malformed
  | some d => .ok (some d, c.step)
  | none => .ok (none, c)

/-- The marks behind the start of a block, in either order. -/
def blockMarks (c : Cursor) : Except Fault (Chomp × Option Nat × Cursor) := do
  let (chomp, indent, c) ← match chompOf? c.peek with
    | some chomp => do
      let (indent, c) ← indentDigit c.step
      pure (chomp, indent, c)
    | none => do
      let (indent, c) ← indentDigit c
      match indent.bind fun _ => chompOf? c.peek with
      | some chomp => pure (chomp, indent, c.step)
      | none => pure (.clip, indent, c)
  if isSpaceOrEnd c.peek then return (chomp, indent, c) else throw .malformed

/-- The rest of a line that holds blanks and a comment only. -/
def ignoredLine (c : Cursor) : Except Fault Cursor :=
  let c := c.skip (· == ' ')
  let c := if c.peek == '#' then c.skip (!isBreakOrEnd ·) else c
  if isBreakOrEnd c.peek then .ok c.lineBreak.2 else .error .malformed

/-- The empty lines in front of a block, and the widest indentation among them and of the first
line. -/
def blockIndent : Nat → Cursor → List Char → Nat → List Char × Nat × Cursor
  | 0, c, breaks, widest => (breaks, widest, c)
  | fuel + 1, c, breaks, widest =>
    if c.peek == ' ' then
      let c := c.step
      blockIndent fuel c breaks (max widest c.column)
    else if isBreak c.peek then
      let (b, c) := c.lineBreak
      blockIndent fuel c (breaks ++ b) widest
    else (breaks, widest, c)

/-- The blanks up to an indentation. -/
def indentBlanks (indent : Nat) : Nat → Cursor → Cursor
  | 0, c => c
  | fuel + 1, c =>
    if c.column < indent && c.peek == ' ' then indentBlanks indent fuel c.step else c

/-- The empty lines inside a block, and the place where the next line starts. -/
def blockBreaks (indent : Nat) : Nat → Cursor → List Char → List Char × Cursor
  | 0, c, breaks => (breaks, c)
  | fuel + 1, c, breaks =>
    let c := indentBlanks indent indent c
    if isBreak c.peek then
      let (b, c) := c.lineBreak
      blockBreaks indent fuel c (breaks ++ b)
    else (breaks, c)

/-- The lines of a block from a line on: the text, the last line break, the empty lines after it,
and the place after them. -/
def blockLines (fold : Bool) (indent : Nat) :
    Nat → Cursor → List Char → List Char → List Char × List Char × List Char × Cursor
  | 0, c, acc, breaks => (acc, [], breaks, c)
  | fuel + 1, c, acc, breaks =>
    if c.column == indent && !c.rest.isEmpty then
      let acc := acc ++ breaks
      let indented := c.peek == ' ' || c.peek == '\t'
      let (run, c) := c.span (!isBreakOrEnd ·)
      let acc := acc ++ run
      let (ending, c) := c.lineBreak
      let (breaks, c) := blockBreaks indent (c.rest.length + 1) c []
      if c.column == indent && !c.rest.isEmpty then
        let next := c.peek == ' ' || c.peek == '\t'
        let joint :=
          if fold && ending == ['\n'] && !indented && !next then
            if breaks.isEmpty then [' '] else []
          else ending
        blockLines fold indent fuel c (acc ++ joint) breaks
      else (acc, ending, breaks, c)
    else (acc, [], breaks, c)

/-- A block scalar after its first mark; `parent` is the indentation around it. -/
def blockScalar (fold : Bool) (parent : Int) (c : Cursor) : Except Fault (List Char × Cursor) := do
  let (chomp, mark, c) ← blockMarks c
  let c ← ignoredLine c
  let least := (max (parent + 1) 1).toNat
  let (indent, breaks, c) := match mark with
    | none =>
      let (breaks, widest, c) := blockIndent (c.rest.length + 1) c [] 0
      (max least widest, breaks, c)
    | some mark =>
      let indent := least + mark - 1
      let (breaks, c) := blockBreaks indent (c.rest.length + 1) c []
      (indent, breaks, c)
  let (text, ending, breaks, c) := blockLines fold indent (c.rest.length + 1) c [] breaks
  return match chomp with
    | .strip => (text, c)
    | .clip => (text ++ ending, c)
    | .keep => (text ++ ending ++ breaks, c)

end IngressBench.Yaml
