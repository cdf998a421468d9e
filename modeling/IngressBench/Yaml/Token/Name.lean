import IngressBench.Json.Reading
import IngressBench.Yaml.Token

/-!
The names in a YAML text: anchors and aliases, tags with their handles and escapes, and the lines
with directives in front of a document.
-/
namespace IngressBench.Yaml

/-- The name of an anchor or alias, after its mark. -/
def anchorName (c : Cursor) : Except Fault (String × Cursor) :=
  let (name, c) := c.span isNameChar
  if name.isEmpty then .error .malformed
  else if isGap c.peek || "?:,]\x7d%@`".toList.contains c.peek then .ok (String.ofList name, c)
  else .error .malformed

/-! ### Tags -/

/-- A handle: a mark alone, or a name between two marks. -/
def tagHandle (c : Cursor) : Except Fault (String × Cursor) :=
  if c.peek ≠ '!' then .error .malformed
  else if c.peekAt 1 == ' ' then .ok ("!", c.step)
  else
    let (name, after) := c.step.span isNameChar
    if after.peek == '!' then .ok (String.ofList ('!' :: name ++ ['!']), after.step)
    else .error .malformed

/-- The bytes behind percent signs, two hexadecimal digits each. -/
def escapedBytes : Nat → Cursor → List UInt8 → Except Fault (List UInt8 × Cursor)
  | 0, c, acc => .ok (acc, c)
  | fuel + 1, c, acc =>
    if c.peek ≠ '%' then .ok (acc, c)
    else
      match Json.hexDigit? (c.peekAt 1), Json.hexDigit? (c.peekAt 2) with
      | some high, some low =>
        escapedBytes fuel (c.advance 3) (acc ++ [UInt8.ofNat (16 * high + low)])
      | _, _ => .error .malformed

def isAddressChar (c : Char) : Bool :=
  c.isAlphanum || "-;/?:@&=+$,_.!~*'()[]".toList.contains c

/-- The characters of a tag's suffix, escapes resolved. -/
def tagSuffix : Nat → Cursor → List Char → Except Fault (List Char × Cursor)
  | 0, c, acc => .ok (acc, c)
  | fuel + 1, c, acc =>
    if c.peek == '%' then do
      let (bytes, c) ← escapedBytes (c.rest.length + 1) c []
      match String.fromUTF8? (ByteArray.mk bytes.toArray) with
      | some s => tagSuffix fuel c (acc ++ s.toList)
      | none => throw .malformed
    else if isAddressChar c.peek then tagSuffix fuel c.step (acc ++ [c.peek])
    else .ok (acc, c)

/-- A suffix with at least one character. -/
def address (c : Cursor) : Except Fault (String × Cursor) := do
  let (s, c) ← tagSuffix (c.rest.length + 1) c []
  if s.isEmpty then throw .malformed else return (String.ofList s, c)

/-- A tag from its first mark on. -/
def tagName (c : Cursor) : Except Fault (TagName × Cursor) := do
  let next := c.peekAt 1
  let (name, c) ←
    if next == '<' then do
      let (suffix, c) ← address (c.advance 2)
      if c.peek == '>' then pure (TagName.mk none suffix, c.step) else throw .malformed
    else if isGap next then pure (TagName.mk none "!", c.step)
    else do
      let word := c.step.rest.takeWhile fun ch => !isSpaceOrEnd ch
      let (handle, c) ← if word.contains '!' then tagHandle c else pure ("!", c.step)
      let (suffix, c) ← address c
      pure (TagName.mk (some handle) suffix, c)
  if isSpaceOrEnd c.peek then return (name, c) else throw .malformed

/-! ### Directives -/

/-- A row of ASCII digits as a number. -/
def versionNumber (c : Cursor) : Except Fault (Nat × Cursor) :=
  let (digits, c) := c.span Char.isDigit
  if digits.isEmpty then .error .malformed else .ok (Text.asciiNumber digits, c)

/-- The rest of a directive's line. -/
def directiveEnd (c : Cursor) : Except Fault Cursor :=
  let c := c.skip (· == ' ')
  let c := if c.peek == '#' then c.skip (!isBreakOrEnd ·) else c
  if isBreakOrEnd c.peek then .ok c.lineBreak.2 else .error .malformed

/-- A line with a directive, from its mark on. -/
def directive (c : Cursor) : Except Fault (Token × Cursor) := do
  let (name, c) := c.step.span isNameChar
  if name.isEmpty || !isSpaceOrEnd c.peek then throw .malformed
  match String.ofList name with
  | "YAML" => do
    let (major, c) ← versionNumber (c.skip (· == ' '))
    if c.peek ≠ '.' then throw .malformed
    let (minor, c) ← versionNumber c.step
    if !isSpaceOrEnd c.peek then throw .malformed
    return (.versionLine major minor, ← directiveEnd c)
  | "TAG" => do
    let (handle, c) ← tagHandle (c.skip (· == ' '))
    if c.peek ≠ ' ' then throw .malformed
    let (start, c) ← address (c.skip (· == ' '))
    if !isSpaceOrEnd c.peek then throw .malformed
    return (.tagLine handle start, ← directiveEnd c)
  | _ => return (.otherLine, ← directiveEnd (c.skip (!isBreakOrEnd ·)))

end IngressBench.Yaml
