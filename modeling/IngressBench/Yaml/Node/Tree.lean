import IngressBench.Yaml.Node
import IngressBench.Yaml.Token.Row

/-!
The nodes of a row of tokens. A text holds at most one document. An anchor names the node behind it
from there on, also inside the node itself; an anchor is given once.
-/
namespace IngressBench.Yaml

/-- The tokens that are left and the nodes so far. -/
structure Growth where
  tokens : List Token
  nodes : Array Node := #[]
  anchors : List (String × Nat) := []
  handles : List (String × String) := []

abbrev Grow (α : Type) := StateT Growth (Except Fault) α

namespace Grow

/-- The next token. -/
def peek : Grow Token := do
  return (← get).tokens.headD .streamEnd

/-- Takes the next token. -/
def next : Grow Unit :=
  modify fun g => { g with tokens := g.tokens.drop 1 }

/-- Takes the next token if it is `t`. -/
def take? (t : Token) : Grow Bool := do
  if (← peek) == t then
    next
    return true
  else return false

/-- Adds a node. -/
def add (node : Node) : Grow Nat :=
  modifyGet fun g => (g.nodes.size, { g with nodes := g.nodes.push node })

/-- Sets what a node holds. -/
def fill (id : Nat) (content : Content) : Grow Unit :=
  modify fun g => { g with nodes := g.nodes.modify id ({ · with content }) }

/-- Adds the empty scalar that stands where a node is left out. -/
def blank : Grow Nat :=
  add ⟨coreTag "null", .scalar ""⟩

/-- The tag of a name, its handle resolved. -/
def resolve (name : TagName) : Grow String := do
  match name.handle with
  | none => return name.suffix
  | some handle =>
    match List.lookup handle (← get).handles with
    | some start => return start ++ name.suffix
    | none => throw .malformed

/-- The anchor and the tag in front of a node, in either order. -/
def properties : Grow (Option String × Option String) := do
  match ← peek with
  | .anchor name => do
    next
    match ← peek with
    | .tag t => do
      next
      return (some name, some (← resolve t))
    | _ => return (some name, none)
  | .tag t => do
    next
    let tag ← resolve t
    match ← peek with
    | .anchor name => do
      next
      return (some name, some tag)
    | _ => return (none, some tag)
  | _ => return (none, none)

/-- Names a node. -/
def name (anchor : Option String) (id : Nat) : Grow Unit := do
  match anchor with
  | none => return
  | some a =>
    if ((← get).anchors.lookup a).isSome then throw .malformed
    modify fun g => { g with anchors := (a, id) :: g.anchors }

/-- Adds a scalar. A tag of one mark alone lets the text decide, as does a missing one on a plain
scalar. -/
def scalar (tag : Option String) (text : String) (plain : Bool) : Grow Nat :=
  add ⟨match tag with
    | some "!" => implicitTag text
    | some tag => tag
    | none => if plain then implicitTag text else coreTag "str", .scalar text⟩

/-- The tag of a collection. -/
def collectionTag (kind : String) : Option String → String
  | none | some "!" => coreTag kind
  | some tag => tag

mutual

/-- A node. `block` allows blocks, `indentless` also items without an indentation of their own.
Every step takes a token or asks for a part that does, so the count of tokens bounds them. -/
def node : Nat → Bool → Bool → Grow Nat
  | 0, _, _ => throw .malformed
  | fuel + 1, block, indentless => do
    match ← peek with
    | .alias a => do
      next
      match (← get).anchors.lookup a with
      | some id => return id
      | none => throw .malformed
    | _ =>
      let (anchor, tag) ← properties
      match ← peek with
      | .scalar text plain => do
        next
        let id ← scalar tag text plain
        name anchor id
        return id
      | .openList => do
        next
        sequence anchor tag (flowItems fuel true [])
      | .openMap => do
        next
        mapping anchor tag (flowEntries fuel true [])
      | .entry =>
        if indentless then sequence anchor tag (looseItems fuel []) else leftOut anchor tag
      | .blockSequence =>
        if block then do
          next
          sequence anchor tag (blockItems fuel [])
        else leftOut anchor tag
      | .blockMapping =>
        if block then do
          next
          mapping anchor tag (blockEntries fuel [])
        else leftOut anchor tag
      | _ => leftOut anchor tag
where
  sequence (anchor tag : Option String) (items : Grow (List Nat)) : Grow Nat := do
    let id ← add ⟨collectionTag "seq" tag, .sequence []⟩
    name anchor id
    fill id (.sequence (← items))
    return id
  mapping (anchor tag : Option String) (entries : Grow (List (Nat × Nat))) : Grow Nat := do
    let id ← add ⟨collectionTag "map" tag, .mapping []⟩
    name anchor id
    fill id (.mapping (← entries))
    return id
  /-- An empty scalar, which needs an anchor or a tag here. -/
  leftOut (anchor tag : Option String) : Grow Nat := do
    if anchor.isNone && tag.isNone then throw .malformed
    let id ← scalar tag "" true
    name anchor id
    return id

/-- A node, or the empty scalar before one of the tokens. -/
def nodeUnless : Nat → Bool → List Token → Grow Nat
  | 0, _, _ => throw .malformed
  | fuel + 1, block, ends => do
    if ends.contains (← peek) then blank else node fuel block block

/-- The items of a block. -/
def blockItems : Nat → List Nat → Grow (List Nat)
  | 0, _ => throw .malformed
  | fuel + 1, acc => do
    if ← take? .entry then do
      let id ←
        if [Token.entry, .blockEnd].contains (← peek) then blank else node fuel true false
      blockItems fuel (id :: acc)
    else if ← take? .blockEnd then return acc.reverse
    else throw .malformed

/-- The items without an indentation of their own. -/
def looseItems : Nat → List Nat → Grow (List Nat)
  | 0, _ => throw .malformed
  | fuel + 1, acc => do
    if ← take? .entry then do
      let id ←
        if [Token.entry, .key, .value, .blockEnd].contains (← peek) then blank
        else node fuel true false
      looseItems fuel (id :: acc)
    else return acc.reverse

/-- The entries of a block. -/
def blockEntries : Nat → List (Nat × Nat) → Grow (List (Nat × Nat))
  | 0, _ => throw .malformed
  | fuel + 1, acc => do
    if ← take? .key then do
      let key ← nodeUnless fuel true [.key, .value, .blockEnd]
      let value ← if ← take? .value then nodeUnless fuel true [.key, .value, .blockEnd] else blank
      blockEntries fuel ((key, value) :: acc)
    else if ← take? .blockEnd then return acc.reverse
    else throw .malformed

/-- The items between brackets; a key among them starts a mapping of one entry. -/
def flowItems : Nat → Bool → List Nat → Grow (List Nat)
  | 0, _, _ => throw .malformed
  | fuel + 1, first, acc => do
    if ← take? .closeList then return acc.reverse
    if !first then
      if !(← take? .comma) then throw .malformed
    if ← take? .key then do
      let id ← add ⟨coreTag "map", .mapping []⟩
      let key ← nodeUnless fuel false [.value, .comma, .closeList]
      let value ← if ← take? .value then nodeUnless fuel false [.comma, .closeList] else blank
      fill id (.mapping [(key, value)])
      flowItems fuel false (id :: acc)
    else if ← take? .closeList then return acc.reverse
    else do
      let id ← node fuel false false
      flowItems fuel false (id :: acc)

/-- The entries between braces; a node without a colon is a key without a value. -/
def flowEntries : Nat → Bool → List (Nat × Nat) → Grow (List (Nat × Nat))
  | 0, _, _ => throw .malformed
  | fuel + 1, first, acc => do
    if ← take? .closeMap then return acc.reverse
    if !first then
      if !(← take? .comma) then throw .malformed
    if ← take? .key then do
      let key ← nodeUnless fuel false [.value, .comma, .closeMap]
      let value ← if ← take? .value then nodeUnless fuel false [.comma, .closeMap] else blank
      flowEntries fuel false ((key, value) :: acc)
    else if ← take? .closeMap then return acc.reverse
    else do
      let key ← node fuel false false
      let value ← blank
      flowEntries fuel false ((key, value) :: acc)

end

/-! ### Documents -/

/-- The handles that every document has. -/
def defaultHandles : List (String × String) :=
  [("!", "!"), ("!!", coreTag "")]

/-- The directives in front of a document: whether a version was given, and the handles. -/
def directives : Nat → Bool → List (String × String) → Grow (List (String × String))
  | 0, _, _ => throw .malformed
  | fuel + 1, versioned, handles => do
    match ← peek with
    | .versionLine major _ => do
      if versioned || major ≠ 1 then throw .malformed
      next
      directives fuel true handles
    | .tagLine handle start => do
      if (handles.lookup handle).isSome then throw .malformed
      next
      directives fuel versioned ((handle, start) :: handles)
    | .otherLine => do
      next
      directives fuel versioned handles
    | _ => return handles ++ defaultHandles

/-- Takes the ends of documents. -/
def documentEnds : Nat → Grow Unit
  | 0 => return
  | fuel + 1 => do
    if ← take? .documentEnd then documentEnds fuel

def isDirective : Token → Bool
  | .versionLine .. | .tagLine .. | .otherLine => true
  | _ => false

/-- The root of the only document, if there is one. -/
def document (fuel : Nat) : Grow (Option Nat) := do
  let first ← peek
  let root ←
    if isDirective first || first == .documentStart then do
      let handles ← directives fuel false []
      modify ({ · with handles })
      if !(← take? .documentStart) then throw .malformed
      let start ← peek
      if isDirective start || [Token.documentStart, .documentEnd, .streamEnd].contains start then
        pure (some (← blank))
      else pure (some (← node fuel true false))
    else if first == .streamEnd then pure none
    else do
      modify ({ · with handles := defaultHandles })
      pure (some (← node fuel true false))
  documentEnds fuel
  if (← peek) == .streamEnd then return root else throw .malformed

end Grow

/-- The nodes of a text, and the root among them. -/
def nodes (text : List Char) : Except Fault (Option Nat × Array Node) := do
  let row ← tokens text
  let (root, g) ← (Grow.document (6 * row.length + 10)).run { tokens := row }
  return (root, g.nodes)

end IngressBench.Yaml
