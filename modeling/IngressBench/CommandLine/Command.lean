import IngressBench.CommandLine.Help
import IngressBench.Record.Intake

/-!
Reading a command line: the version, a run with its flags, a request for help, or a misuse that is
answered with the usage and a complaint.
-/
namespace IngressBench.CommandLine

/-- What a run is asked for. Values stand as they were given. -/
structure RunRequest where
  cases : Document
  uuid : Option Document := none
  cleanup : Bool := false
  /-- The settings that flags give, in the order of the flags. -/
  settings : Record.Fields := []

/-- What a command line asks for. -/
inductive Command where
  | version
  | run (request : RunRequest)

/-- A command line that asks for no command. -/
inductive Refusal where
  | help (text : String)
  | misuse (usage program complaint : String)
deriving Repr, DecidableEq

/-- What a refusal tells. -/
def Refusal.text : Refusal → String
  | help text => text
  | misuse usage program complaint => s!"{usage}{program}: error: {complaint}\n"

/-- The exit code of a refusal. -/
def Refusal.code : Refusal → Int
  | help _ => 0
  | misuse .. => 2

/-- A part of the command line and what it tells about itself. -/
structure Page where
  program : String
  usage : String
  help : String
  flags : List Flag

def programPage : Page := ⟨programName, programUsage, programHelp, programFlags⟩

def versionPage : Page := ⟨programName ++ " version", versionUsage, versionHelp, [helpFlag]⟩

def runPage : Page := ⟨programName ++ " run", runUsage, runHelp, runFlags⟩

/-- A complaint about a part of the command line. -/
def Page.misuse (p : Page) (complaint : String) : Refusal :=
  .misuse p.usage p.program complaint

/-- A complaint that arguments are missing. -/
def Page.missing (p : Page) (names : List String) : Refusal :=
  p.misuse ("the following arguments are required: " ++ ", ".intercalate names)

/-! ### The arguments of a command -/

/-- Reads the arguments of a command. -/
def Page.read (p : Page) (args : List String) : Except Refusal Reading := do
  let arguments ← (arguments p.flags args).mapError p.misuse
  let r ← (readFlags p.flags (· == helpFlag) arguments).mapError p.misuse
  if r.uses.any fun u => u.flag == helpFlag then throw (.help p.help)
  return r

/-- The last value of a flag. -/
def Reading.value? (r : Reading) (f : Flag) : Option Document :=
  (r.uses.reverse.find? fun u => u.flag == f).map Use.value

/-- The run that flags ask for. -/
def runRequest (r : Reading) : Except Refusal RunRequest := do
  match r.value? caseFlag with
  | none => throw (runPage.missing caseFlag.names)
  | some cases =>
    return {
      cases, uuid := r.value? uuidFlag, cleanup := (r.value? cleanupFlag).isSome
      settings := settingFlags.filterMap fun (f, name) => (r.value? f).map (name, ·) }

/-- What a command and its arguments ask for, and the arguments that are left over. -/
def readCommand (name : String) (args : List String) : Except Refusal (Command × List String) := do
  if name = "version" then
    let r ← versionPage.read args
    return (.version, r.rest)
  else if name = "run" then
    let r ← runPage.read args
    return (.run (← runRequest r), r.rest)
  else
    throw (programPage.misuse
      s!"argument command: invalid choice: {Text.quoted name} (choose from 'run', 'version')")

/-! ### The whole command line -/

/-- Whether a command stands in front of all flags: a word, or a separator with a word behind it. -/
def startsWithCommand : List Argument → Bool
  | .word _ :: _ => true
  | .separator :: .word _ :: _ => true
  | _ => false

/-- What stands in front of the command, and the command with its arguments. -/
def splitCommand : List Argument → List String → List Argument × List String
  | a :: rest, text :: texts =>
    if startsWithCommand (a :: rest) then ([], text :: texts)
    else
      let (front, command) := splitCommand rest texts
      (a :: front, command)
  | _, _ => ([], [])

/-- What a command line asks for. -/
def read (args : List String) : Except Refusal Command := do
  let page := programPage
  let arguments ← (arguments page.flags args).mapError page.misuse
  let (front, command) := splitCommand arguments args
  let r ← (readFlags page.flags (· == helpFlag) front).mapError page.misuse
  if r.uses.any fun u => u.flag == helpFlag then throw (.help page.help)
  match command with
  | [] => throw (page.missing ["command"])
  | name :: rest => do
    let (c, left) ← readCommand name rest
    let left := r.rest ++ left
    if left.isEmpty then return c
    else throw (page.misuse ("unrecognized arguments: " ++ " ".intercalate left))

end IngressBench.CommandLine
