import IngressBench.CommandLine.Command
import IngressBench.Run.Course
import IngressBench.Suite

/-!
The program behind the command line. It ends with an exit code: zero for a run without degraded
results, two for one with degraded results, one for a run that failed.
-/
namespace IngressBench.CommandLine

variable {τ : Type} [TimeScale τ]

/-! ### The log -/

/-- The levels of the log by the names that settings may use. -/
def levels : List (String × String) :=
  [("CRITICAL", "CRITICAL"), ("FATAL", "CRITICAL"), ("ERROR", "ERROR"), ("WARNING", "WARNING"),
    ("WARN", "WARNING"), ("INFO", "INFO"), ("DEBUG", "DEBUG"), ("NOTSET", "NOTSET")]

/-- The weight of a level; a log of a level tells the lines that are at least as heavy. -/
def weight (level : String) : Nat :=
  match level with
  | "CRITICAL" => 50
  | "ERROR" => 40
  | "WARNING" => 30
  | "INFO" => 20
  | "DEBUG" => 10
  | _ => 0

/-- The level of a log that nobody set. -/
def usualLevel : String := "WARNING"

/-- The format of log lines, whose name is no level. -/
def lineFormat : String := "%(levelname)s:%(name)s:%(message)s"

/-- The level of the log that a setting asks for; unknown names ask for the usual one. -/
def levelOf (name : String) : Except Failure String :=
  match levels.lookup name with
  | some level => .ok level
  | none =>
    if name = "BASIC_FORMAT" then .error (.value s!"Unknown level: {Text.quoted lineFormat}")
    else if name = "_STYLES" then .error (.kind "Level not an integer or a valid string")
    else .ok "INFO"

/-! ### The command `run` -/

/-- The settings of a run; settings that cannot be used are told. -/
def readSettings (env : Environment) (r : RunRequest) : Action τ (Option Settings) := do
  match Settings.read env r.settings with
  | .ok settings => return some settings
  | .error (.invalid _ issues) => do
    Action.ask (.say .errors ((ConfigFault.invalidSettings issues).message ++ "\n"))
    return none
  | .error failure => throw failure

/-- The name of a run: the one that was given, or a fresh one. -/
def runName (r : RunRequest) : Action τ String := do
  match r.uuid.bind Document.text? with
  | some name => if name.isEmpty then Action.ask .freshId else return name
  | none => Action.ask .freshId

/-- The path of the suite. -/
def suitePath (r : RunRequest) : Except Failure String :=
  match r.cases with
  | .text path => .ok path
  | _ => .error (.kind "expected str, bytes or os.PathLike object, not list")

/-- The test cases and the sink of a run. -/
def prepare (r : RunRequest) (settings : Settings) (run : String) :
    Action τ (List TestCase × Option Sink) := do
  let cases ← Suite.load (← Action.ofExcept (suitePath r))
  return (cases, ← Sink.ofSettings settings run)

/-- The name of a kind of sink. -/
def sinkName (s : Sink) : String :=
  match s.cadence with
  | .streaming => "StreamingSink"
  | .batch _ => "BatchSink"

/-- Whether a failure of a run ends the program with an exit code. -/
def isExpected (failure : Failure) : Bool :=
  failure.isOwn ||
    match failure with
    | .rejected .. | .unreachable _ => true
    | _ => false

/-- Tells how a run ended, and the exit code for it. -/
def conclude (run : String) (phase : Phase) (outcome : Except Failure Unit) : Action τ Int := do
  match outcome with
  | .ok () => do
    Action.log .info s!"Run {run} completed"
    return 0
  | .error .comparison => do
    Action.log .error Failure.comparison.message
    return 2
  | .error failure => do
    if !isExpected failure then throw failure
    if failure.isCancelled then
      Action.log .warning s!"Run {run} cancelled in phase {phase.name}"
    else
      Action.log .error s!"Run {run} failed in phase {phase.name}: {failure.message}"
    return 1

/-- Runs test cases, and tells how the run ended. -/
def execute (team : Settings → Team τ) (settings : Settings) (cleanup : Bool) (run : String)
    (cases : List TestCase) (sink : Option Sink) : Action τ Int := do
  Action.log .info s!"Starting ingress-perf run {run} with {cases.length} test cases"
  Action.ask (.announce run cleanup cases settings.document (sink.map sinkName))
  Action.ask .handleSignals
  let plan : Plan τ := {
    run, cleanup, cases, settings, limits := Limits.ofSettings settings, team := team settings }
  let (outcome, state) ← ExceptT.lift (plan.start.perform { sink })
  conclude run state.phase outcome

/-- The command `run`. -/
def runCommand (env : Environment) (team : Settings → Team τ) (r : RunRequest) : Action τ Int := do
  match ← readSettings env r with
  | none => return 1
  | some settings => do
    Action.ask (.setLevel (← Action.ofExcept (levelOf settings.logLevel)))
    let run ← runName r
    match ← Action.attempt (prepare r settings run) with
    | .ok (cases, sink) => execute team settings r.cleanup run cases sink
    | .error failure => do
      if !failure.isOwn then throw failure
      Action.log .error failure.message
      return 1

/-- The program for a command line. -/
def program (env : Environment) (team : Settings → Team τ) (args : List String) : Action τ Int := do
  match read args with
  | .ok .version => do
    Action.ask (.say .output s!"{programName} {version}\n")
    return 0
  | .ok (.run request) => runCommand env team request
  | .error refusal => do
    let stream := match refusal with
      | .help _ => Stream.output
      | .misuse .. => Stream.errors
    Action.ask (.say stream refusal.text)
    throw (.exit refusal.code)

end IngressBench.CommandLine
