import IngressBench.File.Call
import IngressBench.File.Path

/-!
A tree of files. An entry stands at a list of names; the directory that relative paths start from
stands at the empty list, the root of absolute paths at `/`, and a way up from the start at `..`.
-/
namespace IngressBench

/-- A directory, or a file with its bytes. -/
inductive FileEntry where
  | directory
  | file (bytes : List UInt8)
deriving Repr, DecidableEq

/-- The place of an entry: its names, outermost first. -/
abbrev Location := List String

/-- A tree of files, as its entries. -/
structure Volume where
  entries : List (Location × FileEntry) := []
deriving Repr, DecidableEq

namespace Volume

/-- The entry at a place. Where paths start there is always a directory. -/
def find? (v : Volume) (loc : Location) : Option FileEntry :=
  if loc = [] ∨ loc = ["/"] ∨ loc.all (· = "..") then some .directory
  else List.lookup loc v.entries

/-- Puts an entry at a place, in place of the one that is there. -/
def put (v : Volume) (loc : Location) (entry : FileEntry) : Volume :=
  ⟨(loc, entry) :: v.entries.filter fun e => e.1 ≠ loc⟩

def remove (v : Volume) (loc : Location) : Volume :=
  ⟨v.entries.filter fun e => e.1 ≠ loc⟩

/-! ### Whole trees -/

/-- The place of a path, as it is written. -/
def placeOf (path : String) : Location :=
  (if path.startsWith "/" then ["/"] else []) ++ Path.parts path

/-- Puts an entry at the place of a path, and directories around it where nothing is. -/
def plant (v : Volume) (path : String) (entry : FileEntry) : Volume :=
  let place := placeOf path
  let around := (List.range place.length).map fun n => place.take n
  (around.foldl (fun v p => if (v.find? p).isSome then v else v.put p .directory) v).put place entry

/-- The entries below where paths start, by their paths. -/
def listing (v : Volume) : List (String × FileEntry) :=
  v.entries.filterMap fun (place, entry) =>
    if place.head? = some "/" || place.head? = some ".." then none
    else some ("/".intercalate place, entry)

/-! ### Finding places -/

/-- Most bytes of a name. -/
def nameLimit : Nat := 255

/-- The place that names lead to from a directory: all but the last have to be directories. -/
def walk (v : Volume) : Location → List String → Except FileFault Location
  | loc, [] => .ok loc
  | loc, name :: rest =>
    match v.find? loc with
    | none => .error .missing
    | some (.file _) => .error .notDirectory
    | some .directory =>
      if name.utf8ByteSize > nameLimit then .error .nameTooLong
      else if name = ".." && loc ≠ [] && loc.getLast? ≠ some ".." then v.walk loc.dropLast rest
      else v.walk (loc ++ [name]) rest

/-- The place of a path. -/
def locate (v : Volume) (path : String) : Except FileFault Location :=
  if path.isEmpty then .error .missing
  else if path.toList.contains '\x00' then .error .nullByte
  else v.walk (if path.startsWith "/" then ["/"] else []) (Path.parts path)

/-! ### Calls -/

def read (v : Volume) (path : String) : Except FileFault (List UInt8) := do
  match v.find? (← v.locate path) with
  | some (.file bytes) => return bytes
  | some .directory => throw .isDirectory
  | none => throw .missing

def write (v : Volume) (path text : String) : Except FileFault Volume := do
  let loc ← v.locate path
  match v.find? loc with
  | some .directory => throw .isDirectory
  | _ => return v.put loc (.file text.toUTF8.data.toList)

/-- Moves a file over another one, or to a free place. -/
def rename (v : Volume) (source target : String) : Except FileFault Volume := do
  let start ← v.locate source
  let goal ← v.locate target
  match v.find? start, v.find? goal with
  | none, _ => throw .missing
  | some (.file _), some .directory => throw .isDirectory
  | some entry, _ => return (v.remove start).put goal entry

def makeDirectory (v : Volume) (path : String) : Except FileFault Volume := do
  let loc ← v.locate path
  match v.find? loc with
  | some _ => throw .present
  | none => return v.put loc .directory

def isDirectory (v : Volume) (path : String) : Bool :=
  match v.locate path with
  | .ok loc => v.find? loc == some .directory
  | .error _ => false

def exists_ (v : Volume) (path : String) : Bool :=
  match v.locate path with
  | .ok loc => (v.find? loc).isSome
  | .error _ => false

/-- The tree after a change, or the tree as it was with the fault. -/
def changed (v : Volume) (path : String) (target : Option String) (r : Except FileFault Volume) :
    Except FileError Unit × Volume :=
  match r with
  | .ok v => (.ok (), v)
  | .error fault => (.error ⟨fault, path, target⟩, v)

/-- The answer to a call, and the tree after it. -/
def perform (v : Volume) : (call : FileCall) → call.Reply × Volume
  | .read path => ((v.read path).mapError (⟨·, path, none⟩), v)
  | .write path text => v.changed path none (v.write path text)
  | .rename source target => v.changed source (some target) (v.rename source target)
  | .makeDirectory path => v.changed path none (v.makeDirectory path)
  | .isDirectory path => (v.isDirectory path, v)
  | .exists_ path => (v.exists_ path, v)

end Volume
end IngressBench
