import IngressBench.Failure
import IngressBench.Text.Quoted

/-!
What a run does with files, and how it can fail.
-/
namespace IngressBench

/-- Why a file cannot be used. -/
inductive FileFault where
  | missing
  | present
  | notDirectory
  | isDirectory
  | nameTooLong
  | denied
  /-- The path holds the character NUL. -/
  | nullByte
deriving Repr, DecidableEq

/-- The number and the sentence of a fault. -/
def FileFault.text : FileFault → String
  | missing => "[Errno 2] No such file or directory"
  | denied => "[Errno 13] Permission denied"
  | present => "[Errno 17] File exists"
  | notDirectory => "[Errno 20] Not a directory"
  | isDirectory => "[Errno 21] Is a directory"
  | nameTooLong => "[Errno 36] File name too long"
  | nullByte => "embedded null byte"

/-- A fault with the path it is about, or the two paths. -/
structure FileError where
  fault : FileFault
  path : String
  target : Option String := none
deriving Repr, DecidableEq

def FileError.message (e : FileError) : String :=
  if e.fault = .nullByte then e.fault.text
  else
    e.fault.text ++ ": " ++ Text.quoted e.path ++
      match e.target with
      | some t => " -> " ++ Text.quoted t
      | none => ""

/-- Runs `handle` on a fault of the files; a path that is no path is a failure of its own. -/
def FileError.rescue (handle : String → Failure) (e : FileError) : Failure :=
  if e.fault = .nullByte then .value e.message else handle e.message

/-- What is done with a file. -/
inductive FileCall where
  | read (path : String)
  | write (path text : String)
  | rename (source target : String)
  | makeDirectory (path : String)
  | isDirectory (path : String)
  | exists_ (path : String)
deriving Repr, DecidableEq

def FileCall.Reply : FileCall → Type
  | read _ => Except FileError (List UInt8)
  | write .. | rename .. | makeDirectory _ => Except FileError Unit
  | isDirectory _ | exists_ _ => Bool

end IngressBench
