/-!
Paths as texts. A normal path has no empty part and no part for the directory it stands in; two
slashes in front are kept, any other count of them is one.
-/
namespace IngressBench.Path

/-- The parts of a path between its slashes, those that say nothing left out. -/
def parts (path : String) : List String :=
  ((path.toList.splitOn '/').map String.ofList).filter fun part => !part.isEmpty && part ≠ "."

/-- The slashes that a path starts with. -/
def root (path : String) : String :=
  if path.startsWith "//" && !path.startsWith "///" then "//"
  else if path.startsWith "/" then "/"
  else ""

/-- A path from its root and its parts. -/
def ofParts (root : String) (parts : List String) : String :=
  let body := "/".intercalate parts
  if root.isEmpty && body.isEmpty then "." else root ++ body

/-- The normal form of a path. -/
def normal (path : String) : String :=
  ofParts (root path) (parts path)

/-- A path inside a directory. -/
def join (directory inner : String) : String :=
  ofParts (root directory) (parts directory ++ parts inner)

/-- The directory that a path stands in; a path without parts is its own. -/
def parent (path : String) : String :=
  ofParts (root path) (parts path).dropLast

/-- A path with the home directory in place of a leading tilde; nothing when the tilde names
somebody else's home. -/
def expanded? (home path : String) : Option String :=
  match root path, parts path with
  | "", "~" :: rest => some (join home ("/".intercalate rest))
  | "", first :: _ => if first.startsWith "~" then none else some (normal path)
  | _, _ => some (normal path)

end IngressBench.Path
