import IngressBench.Failure
import IngressBench.Record.Scalar

/-!
Reading a record from named values. The fields are read in order; a value that is not accepted adds
an issue and its field stays at the default, so that one reading finds every issue. The record
counts only when there is no issue. A failure that is no issue ends the reading at once.
-/
namespace IngressBench.Record

/-- Named values. -/
abbrev Fields := List (String × Document)

/-- A step of reading a record. -/
abbrev Intake (α : Type) := StateT (List Issue) (Except Failure) α

/-- The value under the first of the names that is given, with that name. -/
def given? (fields : Fields) : List String → Option (String × Document)
  | [] => none
  | name :: rest =>
    match List.lookup name fields with
    | some d => some (name, d)
    | none => given? fields rest

/-- Notes an issue with a field. -/
def note (name : String) (cause : Cause) : Intake Unit :=
  modify (· ++ [Issue.at name cause])

/-- The field under one of its names, `default` when it is not given or not accepted. -/
def optionalBy {α : Type} (fields : Fields) (names : List String) (default : α)
    (read : Document → Except Cause α) : Intake α :=
  match given? fields names with
  | none => return default
  | some (name, d) =>
    match read d with
    | .ok a => return a
    | .error cause => do
      note name cause
      return default

/-- The field under a name, `default` when it is not given or not accepted. -/
def optional {α : Type} (fields : Fields) (name : String) (default : α)
    (read : Document → Except Cause α) : Intake α :=
  optionalBy fields [name] default read

/-- The field under a name, which has to be given. -/
def required {α : Type} (fields : Fields) (name : String) (default : α)
    (read : Document → Except Cause α) : Intake α :=
  match List.lookup name fields with
  | none => do
    note name .missing
    return default
  | some _ => optional fields name default read

/-- A value that may be nothing. -/
def orNothing {α : Type} (read : Document → Except Cause α) (d : Document) :
    Except Cause (Option α) :=
  match d with
  | .null => .ok none
  | d => (read d).map some

/-- The record that was read, if there was no issue. -/
def finish {α : Type} (title : String) (intake : Intake α) : Except Failure α := do
  let (a, issues) ← intake.run []
  if issues.isEmpty then return a else throw (.invalid title issues)

/-- A record inside a record: its issues are issues of the field that holds it. -/
def nested {α : Type} (title : String) (name : String) (default : α) (d : Document)
    (read : Fields → Intake α) : Intake α :=
  match d with
  | .map entries => do
    let fields := entries.filterMap fun (k, v) => k.text?.map (·, v)
    let (a, issues) ← (read fields).run []
    modify (· ++ issues.map (Issue.under (.field name)))
    return a
  | _ => do
    note name (.notRecord title)
    return default

end IngressBench.Record
