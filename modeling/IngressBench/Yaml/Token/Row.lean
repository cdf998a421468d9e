import IngressBench.Yaml.Token.Name
import IngressBench.Yaml.Token.Scalar

/-!
A YAML text as its row of tokens. A key is recognised only at the colon behind it, so every place
where a key may have started is remembered until the colon comes or the place is given up: at the end
of its line, after 1024 characters, or when another key starts on the same level.
-/
namespace IngressBench.Yaml

/-- A place where a key may have started. A required one has to become a key. -/
structure KeyPlace where
  token : Nat
  required : Bool
  index : Nat
  line : Nat
  column : Nat

/-- The tokens so far, and what decides about the next one. `keys` holds at most one place for every
depth of brackets. -/
structure Row where
  cursor : Cursor
  tokens : Array Token := #[]
  indent : Int := -1
  outer : List Int := []
  depth : Nat := 0
  keyAllowed : Bool := true
  keys : List (Nat × KeyPlace) := []

namespace Row

def add (r : Row) (t : Token) : Row :=
  { r with tokens := r.tokens.push t }

/-- One token of one character. -/
def addMark (r : Row) (t : Token) : Row :=
  { r.add t with cursor := r.cursor.step }

/-! ### Places of keys -/

/-- Gives up the places on earlier lines and too far back. -/
def dropStale (r : Row) : Except Fault Row :=
  let stale (k : KeyPlace) : Bool := k.line ≠ r.cursor.line || r.cursor.index - k.index > 1024
  if r.keys.any fun (_, k) => stale k && k.required then .error .malformed
  else .ok { r with keys := r.keys.filter fun (_, k) => !stale k }

/-- Gives up the place on the current depth. -/
def dropKey (r : Row) : Except Fault Row :=
  match List.lookup r.depth r.keys with
  | some k =>
    if k.required then .error .malformed
    else .ok { r with keys := r.keys.filter fun (d, _) => d ≠ r.depth }
  | none => .ok r

/-- Remembers that a key may start here. -/
def saveKey (r : Row) : Except Fault Row :=
  if !r.keyAllowed then .ok r
  else do
    let c := r.cursor
    let required := r.depth == 0 && r.indent == (c.column : Int)
    let r ← r.dropKey
    return { r with keys := (r.depth, ⟨r.tokens.size, required, c.index, c.line, c.column⟩) :: r.keys }

/-! ### Blocks -/

/-- Ends the blocks that are indented further than a column. -/
def unwind (column : Int) (r : Row) : Row :=
  if r.depth > 0 then r else go r.outer r
where
  go : List Int → Row → Row
    | [], r => if r.indent > column then { r.add .blockEnd with indent := -1, outer := [] } else r
    | i :: rest, r =>
      if r.indent > column then go rest { r.add .blockEnd with indent := i, outer := rest } else r

/-- Starts a block at a column, if the column is further in than the current block. -/
def enter (column : Nat) (r : Row) : Option Row :=
  if r.indent < (column : Int) then
    some { r with indent := column, outer := r.indent :: r.outer }
  else none

/-- Starts a block here with its token, if the column is further in. -/
def open_ (t : Token) (r : Row) : Row :=
  match r.enter r.cursor.column with
  | some r => r.add t
  | none => r

/-! ### Tokens -/

/-- The place after blanks, comments and line breaks. Outside brackets a key may start after a line
break. -/
def toNext : Nat → Row → Row
  | 0, r => r
  | fuel + 1, r =>
    let c := r.cursor.skip (· == ' ')
    let c := if c.peek == '#' then c.skip (!isBreakOrEnd ·) else c
    if isBreak c.peek then
      toNext fuel { r with
        cursor := c.lineBreak.2, keyAllowed := r.keyAllowed || r.depth == 0 }
    else { r with cursor := c }

/-- A line on its own: a directive or the start or end of a document. -/
def lineToken (r : Row) (t : Token) (after : Cursor) : Except Fault Row := do
  let r ← (r.unwind (-1)).dropKey
  return { r.add t with cursor := after, keyAllowed := false }

/-- The end of the text. -/
def finish (r : Row) : Except Fault Row := do
  let r ← (r.unwind (-1)).dropKey
  return { r.add .streamEnd with keyAllowed := false, keys := [] }

def openBracket (r : Row) (t : Token) : Except Fault Row := do
  let r ← r.saveKey
  return { r.addMark t with depth := r.depth + 1, keyAllowed := true }

def closeBracket (r : Row) (t : Token) : Except Fault Row := do
  let r ← r.dropKey
  if r.depth = 0 then throw .malformed
  return { r.addMark t with depth := r.depth - 1, keyAllowed := false }

def comma (r : Row) : Except Fault Row := do
  let r ← r.dropKey
  return { r.addMark .comma with keyAllowed := true }

/-- The mark of an item of a block. -/
def blockEntry (r : Row) : Except Fault Row := do
  if r.depth = 0 && !r.keyAllowed then throw .malformed
  let r := if r.depth = 0 then r.open_ .blockSequence else r
  let r ← r.dropKey
  return { r.addMark .entry with keyAllowed := true }

/-- The mark of a key. -/
def explicitKey (r : Row) : Except Fault Row := do
  if r.depth = 0 && !r.keyAllowed then throw .malformed
  let r := if r.depth = 0 then r.open_ .blockMapping else r
  let r ← r.dropKey
  return { r.addMark .key with keyAllowed := r.depth == 0 }

/-- The mark of a value: what stands at the remembered place becomes its key. -/
def valueMark (r : Row) : Except Fault Row :=
  match List.lookup r.depth r.keys with
  | some k =>
    let r := { r with keys := r.keys.filter fun (d, _) => d ≠ r.depth }
    let (starts, r) := match if r.depth = 0 then r.enter k.column else none with
      | some r => ([Token.blockMapping, .key], r)
      | none => ([.key], r)
    let (before, after) := (r.tokens.extract 0 k.token, r.tokens.extract k.token r.tokens.size)
    .ok { { r with tokens := before ++ starts.toArray ++ after }.addMark .value with
      keyAllowed := false }
  | none => do
    if r.depth = 0 && !r.keyAllowed then throw .malformed
    let r := if r.depth = 0 then r.open_ .blockMapping else r
    let r ← r.dropKey
    return { r.addMark .value with keyAllowed := r.depth == 0 }

/-- A token that a key may start with. -/
def keyStart (r : Row) (read : Cursor → Except Fault (Token × Cursor)) : Except Fault Row := do
  let r ← r.saveKey
  let (t, c) ← read r.cursor
  return { r.add t with cursor := c, keyAllowed := false }

def block (fold : Bool) (r : Row) : Except Fault Row := do
  let r ← r.dropKey
  let (text, c) ← blockScalar fold r.indent r.cursor.step
  return { r.add (.scalar (String.ofList text) false) with cursor := c, keyAllowed := true }

def quoted (double : Bool) (c : Cursor) : Except Fault (Token × Cursor) := do
  let (text, c) ← quotedScalar double (c.rest.length + 1) c.step []
  return (.scalar (String.ofList text) false, c)

def plain (r : Row) : Except Fault Row := do
  let r ← r.saveKey
  let (text, broke, c) :=
    plainScalar (r.depth > 0) (r.indent + 1).toNat (r.cursor.rest.length + 1) r.cursor [] [] false
  return { r.add (.scalar (String.ofList text) true) with cursor := c, keyAllowed := broke }

/-- Whether a plain scalar may start at `c`, which `next` follows. -/
def startsPlain (flow : Bool) (c next : Char) : Bool :=
  !(isGap c || "-?:,[]\x7b\x7d#&*!|>'\"%@`".toList.contains c) ||
    (!isGap next && (c == '-' || (!flow && (c == '?' || c == ':'))))

/-- The next token at the place where it starts. -/
def token (r : Row) : Except Fault Row :=
  let c := r.cursor
  let ch := c.peek
  let next := c.peekAt 1
  let flow := r.depth > 0
  if ch == '%' && c.column == 0 then do
    let (t, after) ← directive c
    r.lineToken t after
  else if c.column == 0 && c.atRow '-' then r.lineToken .documentStart (c.advance 3)
  else if c.column == 0 && c.atRow '.' then r.lineToken .documentEnd (c.advance 3)
  else if ch == '[' then r.openBracket .openList
  else if ch == '\x7b' then r.openBracket .openMap
  else if ch == ']' then r.closeBracket .closeList
  else if ch == '\x7d' then r.closeBracket .closeMap
  else if ch == ',' then r.comma
  else if ch == '-' && isGap next then r.blockEntry
  else if ch == '?' && (flow || isGap next) then r.explicitKey
  else if ch == ':' && (flow || isGap next) then r.valueMark
  else if ch == '*' then
    r.keyStart fun c => (anchorName c.step).map fun (name, c) => (.alias name, c)
  else if ch == '&' then
    r.keyStart fun c => (anchorName c.step).map fun (name, c) => (.anchor name, c)
  else if ch == '!' then r.keyStart fun c => (tagName c).map fun (name, c) => (.tag name, c)
  else if ch == '|' && !flow then r.block false
  else if ch == '>' && !flow then r.block true
  else if ch == '\'' then r.keyStart (quoted false)
  else if ch == '"' then r.keyStart (quoted true)
  else if startsPlain flow ch next then r.plain
  else .error .malformed

/-- All tokens from a place on. Every token takes a character, so the length of the text bounds
their count. -/
def all : Nat → Row → Except Fault (Array Token)
  | 0, _ => .error .malformed
  | fuel + 1, r => do
    let r ← (r.toNext (r.cursor.rest.length + 1)).dropStale
    let r := r.unwind r.cursor.column
    if r.cursor.rest.isEmpty then return (← r.finish).tokens
    else all fuel (← r.token)

end Row

/-- The tokens of a text. A byte order mark at its start is no part of it. -/
def tokens (text : List Char) : Except Fault (List Token) :=
  if !text.all isAllowed then .error .malformed
  else
    let start : Cursor := { rest := text }
    let start := if start.peek == '\uFEFF' then start.step else start
    (Row.all (text.length + 2) { cursor := start }).map Array.toList

end IngressBench.Yaml
