import IngressBench.Document.Use
import IngressBench.File.Path
import IngressBench.Json.Writing
import IngressBench.Program

/-!
Storing documents in a directory, one file for every label. A file is written under another name
first and then takes the place of an earlier one, so that it always holds one whole list of documents.
-/
namespace IngressBench.Directory

variable {τ : Type}

/-! ### Making a directory -/

/-- A directory that could not be made is no fault if it is there already. -/
def unlessThere (path : String) (e : FileError) : Action τ (Except FileError Unit) := do
  if e.fault = .nullByte then return .error e
  let there : Bool ← Action.ask (.file (.isDirectory path))
  return if there then .ok () else .error e

/-- Makes a directory inside another one that exists. -/
def makeOne (path : String) : Action τ (Except FileError Unit) := do
  match ← Action.ask (.file (.makeDirectory path)) with
  | .ok () => return .ok ()
  | .error e => if e.fault = .missing then return .error e else unlessThere path e

/-- Makes a directory, and up to `depth` of the directories around it. -/
def makeAll (depth : Nat) (path : String) : Action τ (Except FileError Unit) := do
  match ← Action.ask (.file (.makeDirectory path)) with
  | .ok () => return .ok ()
  | .error e =>
    if e.fault ≠ .missing then unlessThere path e
    else
      match depth with
      | 0 => return .error e
      | depth + 1 =>
        match ← makeAll depth (Path.parent path) with
        | .error outer => return .error outer
        | .ok () => makeOne path

/-- Makes a directory for documents. -/
def make (path : String) : Action τ Unit := do
  match ← makeAll (Path.parts path).length path with
  | .ok () => return
  | .error e => throw (e.rescue fun cause => .indexing (.directory path cause))

/-! ### Storing -/

/-- The label of documents without a label. -/
def defaultLabel : String := "ingress-perf"

/-- The name of the files for a label; an empty label is none. -/
def fileName (label : Option String) : String :=
  ((label.filter fun l => !l.isEmpty).getD defaultLabel)

/-- Whether a text holds two points in a row. -/
def holdsTwoPoints : List Char → Bool
  | '.' :: '.' :: _ => true
  | _ :: rest => holdsTwoPoints rest
  | [] => false

/-- Whether a name leads to another directory. -/
def leadsAway (name : String) : Bool :=
  name.toList.contains '/' || holdsTwoPoints name.toList

/-- The file that holds the documents of a name. -/
def target (directory name : String) : String :=
  Path.join directory (name ++ ".json")

/-- The file that documents are written to first. -/
def draft (directory name : String) : String :=
  Path.join directory (name ++ ".tmp")

/-- The failure to write a file. -/
def writeFailure (path : String) (e : FileError) : Failure :=
  e.rescue fun cause => .indexing (.write path cause)

/-- The failure of documents that cannot be written. -/
def flawFailure (path : String) (flaw : Json.Flaw) : Failure :=
  match flaw with
  | .name _ => .indexing (.write path flaw.message)
  | .cycle => .value flaw.message

/-- Writes documents to the file of a name. -/
def write (directory name : String) (documents : Document) : Action τ Unit := do
  let path := target directory name
  let first := draft directory name
  let (text, flaw) := Json.pages documents
  if let .error e ← Action.ask (.file (.write first text)) then throw (writeFailure path e)
  if let some flaw := flaw then throw (flawFailure path flaw)
  if let .error e ← Action.ask (.file (.rename first path)) then throw (writeFailure path e)

/-- Stores documents under a label, and tells where. -/
def store (directory : String) (label : Option String) (documents : Document) :
    Action τ String := do
  let name := fileName label
  if leadsAway name then throw (.indexing (.metricName name))
  write directory name documents
  let count ← Action.ofExcept documents.size
  return s!"File {target directory name} created with {count} documents"

end IngressBench.Directory
