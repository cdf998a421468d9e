import IngressBench.Program
import IngressBench.Text.Line
import IngressBench.Yaml.Value

/-!
Suites: the test cases of a benchmark, as a file lists them under its top-level name `config`. A
suite is read as a whole: every entry is a test case, or the first one that is not is told by its
position.
-/
namespace IngressBench.Suite

/-! ### Entries -/

/-- The named values of an entry; every key has to be a text. -/
def entryFields : List (Document × Document) → Except Failure Record.Fields
  | [] => .ok []
  | (.text name, d) :: rest => do return (name, d) :: (← entryFields rest)
  | _ => .error (.kind "keywords must be strings")

/-- The test case of an entry. -/
def entryCase (path : String) (position : Nat) (entry : Document) : Except Failure TestCase :=
  match entry with
  | .map entries => do
    match TestCase.ofFields (← entryFields entries) with
    | .error (.invalid _ issues) => throw (.config (.invalidCase position path issues))
    | r => r
  | _ => .error (.config (.notMapping position path))

/-- The test cases of entries, the first of which stands at `position`. -/
def entryCases (path : String) : Nat → List Document → Except Failure (List TestCase)
  | _, [] => .ok []
  | position, entry :: rest => do
    let case ← entryCase path position entry
    return case :: (← entryCases path (position + 1) rest)

/-- The test cases of a document; there is at least one. -/
def ofDocument (path : String) (d : Document) : Except Failure (List TestCase) :=
  match d.get? "config" with
  | some (.list (entry :: rest)) => entryCases path 1 (entry :: rest)
  | _ => .error (.config (.noCases path))

/-! ### Texts -/

/-- The sentence about a text that is no document. -/
def malformed : String := "the text is no document"

/-- The failure of a text without a value. -/
def faultFailure (path : String) : Yaml.Fault → Failure
  | .malformed => .config (.unreadable path malformed)
  | .value text => .value text
  | .word shown => .key shown
  | .empty => .position "string index out of range"
  | .part text => .part text

/-- The document of a file's bytes. -/
def document (path : String) (bytes : List UInt8) : Except Failure Document :=
  match String.fromUTF8? (ByteArray.mk bytes.toArray) with
  | none => .error (.encoding "the bytes are no text")
  | some s => (Yaml.read (String.ofList (Text.plainLines s.toList))).mapError (faultFailure path)

/-- The test cases of a file's bytes. -/
def ofBytes (path : String) (bytes : List UInt8) : Except Failure (List TestCase) := do
  ofDocument path (← document path bytes)

/-- The test cases of a file. -/
def load {τ : Type} (path : String) : Action τ (List TestCase) := do
  match ← Action.ask (.file (.read path)) with
  | .error e => throw (e.rescue fun cause => .config (.unreadable path cause))
  | .ok bytes => Action.ofExcept (ofBytes path bytes)

end IngressBench.Suite
