import IngressBench.Yaml.Node.Tree
import IngressBench.Yaml.Scalar

/-!
The value of a YAML text. The collections are gone through level by level, and the first fault on
that way is the fault of the text. Mappings take over the entries that a merge key names, behind
their own ones in force and in front of them in order. A collection inside itself is cut off where it
comes back.
-/
namespace IngressBench.Yaml

/-- The kinds of collections. -/
inductive Gathering where
  | list
  | map
  | set
  | pairs
deriving Repr, DecidableEq

/-- The collection that a tag stands for. -/
def gathering? (tag : String) : Option Gathering :=
  if tag = coreTag "seq" then some .list
  else if tag = coreTag "map" then some .map
  else if tag = coreTag "set" then some .set
  else if tag = coreTag "omap" || tag = coreTag "pairs" then some .pairs
  else none

/-- The nodes, those that were met, and the collections still to go through. -/
structure Survey where
  nodes : Array Node
  met : Array Bool
  waiting : List Nat := []

abbrev Surveying (α : Type) := StateT Survey (Except Fault) α

namespace Surveying

def node (id : Nat) : Surveying Node := do
  return (← get).nodes.getD id ⟨coreTag "null", .scalar ""⟩

def setEntries (id : Nat) (entries : List (Nat × Nat)) : Surveying Unit :=
  modify fun s => { s with nodes := s.nodes.modify id ({ · with content := .mapping entries }) }

/-- The entries of a mapping. -/
def entries (id : Nat) : Surveying (List (Nat × Nat)) := do
  match (← node id).content with
  | .mapping es => return es
  | _ => throw .malformed

end Surveying

open Surveying

/-- The text of a scalar. A mapping stands for the scalar under its default key, if it has one. -/
def scalarText : Nat → Array Node → Nat → Except Fault String
  | 0, _, _ => .error .malformed
  | fuel + 1, nodes, id =>
    match nodes[id]? with
    | some ⟨_, .scalar s⟩ => .ok s
    | some ⟨_, .mapping es⟩ =>
      match es.find? fun (k, _) => (nodes[k]?.map Node.tag) == some (coreTag "value") with
      | some (_, v) => scalarText fuel nodes v
      | none => .error .malformed
    | _ => .error .malformed

/-- The value of a node with the tag of a scalar. -/
def scalarValue (nodes : Array Node) (id : Nat) (read : String → Except Fault Document) :
    Except Fault Document := do
  read (← scalarText (nodes.size + 1) nodes id)

/-! ### Merge keys -/

mutual

/-- Resolves the merge keys of a mapping from an entry on; `merged` are the entries taken over so
far. -/
def flatten : Nat → Nat → Nat → List (Nat × Nat) → Surveying Unit
  | 0, _, _, _ => throw .malformed
  | fuel + 1, id, index, merged => do
    let es ← entries id
    match es[index]? with
    | none => setEntries id (merged ++ es)
    | some (k, v) =>
      let key ← node k
      if key.tag = coreTag "merge" then do
        setEntries id (es.eraseIdx index)
        let more ← match (← node v).content with
          | .mapping _ => do
            flatten fuel v 0 []
            entries v
          | .sequence items => do
            let groups ← flattenAll fuel items
            pure groups.reverse.flatten
          | .scalar _ => throw .malformed
        flatten fuel id index (merged ++ more)
      else do
        if key.tag = coreTag "value" then
          modify fun s => { s with nodes := s.nodes.modify k ({ · with tag := coreTag "str" }) }
        flatten fuel id (index + 1) merged

/-- Resolves the merge keys of mappings and gives their entries. -/
def flattenAll : Nat → List Nat → Surveying (List (List (Nat × Nat)))
  | 0, _ => throw .malformed
  | _ + 1, [] => return []
  | fuel + 1, id :: rest => do
    let _ ← entries id
    flatten fuel id 0 []
    let es ← entries id
    return es :: (← flattenAll fuel rest)

end

/-! ### Going through the nodes -/

/-- Meets a node: a scalar has to be readable, a collection waits for its turn. -/
def meet (id : Nat) : Surveying Unit := do
  let s ← get
  if s.met.getD id true then return
  set { s with met := s.met.set! id true }
  let n ← node id
  match scalarReader? n.tag with
  | some read =>
    match scalarValue s.nodes id read with
    | .ok _ => return
    | .error fault => throw fault
  | none =>
    if (gathering? n.tag).isSome then
      modify fun s => { s with waiting := s.waiting ++ [id] }
    else throw .malformed

/-- Meets the keys and values of entries; a collection is no key. -/
def meetEntries : List (Nat × Nat) → Surveying Unit
  | [] => return
  | (k, v) :: rest => do
    meet k
    if (gathering? (← node k).tag).isSome then throw .malformed
    meet v
    meetEntries rest

def meetAll : List Nat → Surveying Unit
  | [] => return
  | id :: rest => do
    meet id
    meetAll rest

/-- Meets the members of a list of mappings of one entry each. -/
def meetPairs : List Nat → Surveying Unit
  | [] => return
  | id :: rest => do
    match ← entries id with
    | [(k, v)] => do
      meet k
      meet v
    | _ => throw .malformed
    meetPairs rest

/-- Goes through one collection. -/
def unfold (id : Nat) : Surveying Unit := do
  let n ← node id
  match gathering? n.tag, n.content with
  | some .list, .sequence items => meetAll items
  | some .pairs, .sequence items => meetPairs items
  | some .map, .mapping _ | some .set, .mapping _ => do
    let count := (← get).nodes.size
    flatten ((count + 2) * (count + 2)) id 0 []
    meetEntries (← entries id)
  | _, _ => throw .malformed

/-- Goes through the waiting collections; each of them waits once. -/
def unfoldAll : Nat → Surveying Unit
  | 0 => return
  | fuel + 1 => do
    match (← get).waiting with
    | [] => return
    | id :: rest => do
      modify ({ · with waiting := rest })
      unfold id
      unfoldAll fuel

/-! ### Values -/

/-- The value of a node inside the nodes `above`. The depth is at most the count of nodes. -/
def value (nodes : Array Node) : Nat → List Nat → Nat → Document
  | 0, _, _ => .null
  | fuel + 1, above, id =>
    let n := nodes.getD id ⟨coreTag "null", .scalar ""⟩
    let inner := value nodes fuel (id :: above)
    match scalarReader? n.tag, n.content with
    | some read, _ => ((scalarValue nodes id read).toOption).getD .null
    | none, .sequence items =>
      if above.contains id then .listAgain
      else if gathering? n.tag = some .pairs then
        .list (items.map fun item =>
          match (nodes[item]?.map Node.content) with
          | some (.mapping ((k, v) :: _)) => .pair (inner k) (inner v)
          | _ => .null)
      else .list (items.map inner)
    | none, .mapping es =>
      if above.contains id then .mapAgain
      else
        let entries := Document.distinct (es.map fun (k, v) => (inner k, inner v))
        if gathering? n.tag = some .set then .set (entries.map Prod.fst) else .map entries
    | none, .scalar _ => .null

/-- The value of a text; a text without a document is nothing. -/
def read (text : String) : Except Fault Document := do
  match ← nodes text.toList with
  | (none, _) => return .null
  | (some root, nodes) => do
    let survey : Survey := { nodes, met := Array.replicate nodes.size false }
    let walk : Surveying Unit := do
      meet root
      unfoldAll nodes.size
    let ((), s) ← walk.run survey
    return value s.nodes (s.nodes.size + 1) [] root

end IngressBench.Yaml
