import IngressBench.CommandLine.Run
import Std.Time.Zoned

/-!
The program on a machine: its files, its clock, its terminal and its environment answer what a run
asks. There is no network behind it, so every cluster and every server is out of reach, and nobody
stops a wait.
-/
namespace IngressBench.Machine

/-- What the program keeps while it runs. -/
structure State where
  /-- The least level of the log. -/
  level : IO.Ref String

/-! ### Files -/

/-- The number of the error about a directory in place of a file. -/
def directoryCode : UInt32 := 21

/-- The fault behind an error of the machine, which may tell its number with a minus. -/
def faultOf : IO.Error → FileFault
  | .noFileOrDirectory .. | .noSuchThing .. => .missing
  | .alreadyExists .. => .present
  | .inappropriateType _ code _ =>
    if code = directoryCode || 0 - code = directoryCode then .isDirectory else .notDirectory
  | .invalidArgument .. => .nameTooLong
  | _ => .denied

/-- What an operation on a path gives, or how it fails. -/
def attempt {α : Type} (path : String) (operation : IO α) (target : Option String := none) :
    IO (Except FileError α) := do
  if path.contains '\x00' then return .error ⟨.nullByte, path, target⟩
  match ← operation.toBaseIO with
  | .ok a => return .ok a
  | .error e => return .error ⟨faultOf e, path, target⟩

/-- The answer to a call of the files. -/
def perform : (call : FileCall) → IO call.Reply
  | .read path => attempt path do return (← IO.FS.readBinFile path).toList
  | .write path text => attempt path (IO.FS.writeFile path text)
  | .rename source target => attempt source (IO.FS.rename source target) (some target)
  | .makeDirectory path => attempt path (IO.FS.createDir path)
  | .isDirectory path => do
    match ← attempt path (IO.FS.readBinFile path) with
    | .ok _ => return false
    | .error e => return e.fault == .isDirectory
  | .exists_ path => do
    match ← attempt path (IO.FS.Handle.mk path .read) with
    | .ok _ => return true
    | .error e => return e.fault == .denied

/-! ### Time and identity -/

/-- The time of day. -/
def now : IO Moment := do
  let t ← Std.Time.Timestamp.now
  return (Moment.ofUnix? (t.toNanosecondsSinceUnixEpoch.val / 1000)).getD ⟨1970, 1, 1, 0, 0, 0, 0, some 0⟩

/-- Two hexadecimal digits. -/
def hexByte (b : UInt8) : List Char :=
  [Nat.digitChar (b.toNat / 16), Nat.digitChar (b.toNat % 16)]

/-- A random identifier. -/
def freshId : IO String := do
  let bytes := (← IO.getRandomBytes 16).toList
  let marked := bytes.zipIdx.map fun (b, i) =>
    if i = 6 then b % 16 + 64 else if i = 8 then b % 64 + 128 else b
  let text (from_ count : Nat) := String.ofList (((marked.drop from_).take count).flatMap hexByte)
  return "-".intercalate [text 0 4, text 4 2, text 6 2, text 8 2, text 10 6]

/-- A line of the log. -/
def line (m : Moment) (level text : String) : String :=
  let two := Moment.field 2
  let day := s!"{Moment.field 4 m.year}-{two m.month}-{two m.day}"
  let time := s!"{two m.hour}:{two m.minute}:{two m.second},{Moment.field 3 (m.microsecond / 1000)}"
  s!"{day} {time} {level} ingress_perf: {text}\n"

/-! ### Answers -/

/-- The fault of a network that is not there. -/
def noNetwork : String := "no network"

/-- The answer to a question. -/
def answer (s : State) : (q : Question) → IO q.Reply
  | .api _ | .exec _ => return .error (.unreachable noNetwork)
  | .http _ => return .error (.connection noNetwork)
  | .file call => perform call
  | .access _ | .connect _ => return .error (.other "NoNetwork" noNetwork)
  | .stamp => now
  | .freshId => freshId
  | .index .. | .drive .. | .tune _ | .compare .. | .check => return .error (.unreachable noNetwork)
  | .bulk .. => return .failed (.unreachable noNetwork)
  | .say .output text => do (← IO.getStdout).putStr text
  | .say .errors text => do (← IO.getStderr).putStr text
  | .setLevel level => s.level.set level
  | .handleSignals | .announce .. => return ()

/-- Milliseconds of a time. -/
def milliseconds (t : Number) : UInt32 :=
  (t.toFloat * 1000.0).toUInt32

/-- The reply to a call. -/
def reply (s : State) : (c : Call Number) → IO c.Reply
  | .clock => do return .real ((← IO.monoMsNow).toFloat / 1000.0)
  | .sleep t => IO.sleep (milliseconds t)
  | .pause t => do
    IO.sleep (milliseconds t)
    return false
  | .log level text => do
    if CommandLine.weight level.name ≥ CommandLine.weight (← s.level.get) then
      (← IO.getStdout).putStr (line (← now) level.name text)
  | .ask q => answer s q

/-- Runs a program. -/
def run {α : Type} (s : State) : Program Number α → IO α
  | .done a => return a
  | .call c next => do run s (next (← reply s c))

/-! ### Environment -/

/-- The names of variables that matter. -/
def variableNames : List String :=
  "KUBECONFIG" :: Settings.names.flatMap fun n =>
    let name := Settings.variablePrefix ++ n
    [Text.upper name, name]

/-- The value of a variable, with its name. -/
def variableOf (name : String) : IO (Option (String × String)) := do
  return (← IO.getEnv name).map (name, ·)

/-- The environment of the program. -/
def environment : IO Environment := do
  let values ← variableNames.filterMapM variableOf
  let file ← attempt ".env" (IO.FS.readFile ".env")
  return { home := (← IO.getEnv "HOME").getD "/", values, file := file.toOption }

/-- Runs the command line, and ends with its exit code. -/
def runCommandLine (args : List String) : IO UInt32 := do
  let env ← environment
  let state : State := { level := ← IO.mkRef CommandLine.usualLevel }
  let team (settings : Settings) : Team Number :=
    Team.own env settings (Limits.ofSettings settings)
  match ← run state (CommandLine.program env team args).run with
  | .ok code => return code.toNat.toUInt32
  | .error (.exit code) => return code.toNat.toUInt32
  | .error failure => do
    IO.eprintln failure.message
    return 1

end IngressBench.Machine

/-- The program of the command line. -/
def main (args : List String) : IO UInt32 :=
  IngressBench.Machine.runCommandLine args
