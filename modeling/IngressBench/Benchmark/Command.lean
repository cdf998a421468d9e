import IngressBench.Failure
import IngressBench.TestCase

/-!
The command line of a load generator for a test case. Durations are cut to whole seconds; a duration
without end has no command line.
-/
namespace IngressBench

/-- The whole seconds of a duration. -/
def wholeSeconds (x : Float) : Except Failure Int :=
  match Binary.ofFloat? x with
  | some b => .ok b.truncated
  | none =>
    if x.isNaN then .error (.value "cannot convert float NaN to integer")
    else .error (.overflow "cannot convert float infinity to integer")

namespace TestCase

/-- The command line for the generator `wrk`. -/
def wrkCommand (c : TestCase) (url : String) : Except Failure (List String) := do
  let duration ← wholeSeconds c.duration
  return ["wrk", "-s", "json.lua", "-c", toString c.connections, "-t", "1", "-d", s!"{duration}s",
    "--timeout", floatText c.requestTimeout ++ "s"] ++
    (if c.keepalive then [] else ["-H", "Connection: close"]) ++ [url]

/-- The command line for the generator `hloader`. -/
def hloaderCommand (c : TestCase) (url : String) : Except Failure (List String) := do
  let duration ← wholeSeconds c.duration
  return ["hloader", "-u", url, "-c", toString c.connections, "-d", s!"{duration}s",
    "-t", floatText c.requestTimeout ++ "s", "--keepalive=" ++ (if c.keepalive then "true" else "false"),
    "-j"]

/-- The command line for a generator. -/
def commandFor (c : TestCase) (url : String) : Tool → Except Failure (List String)
  | .wrk => c.wrkCommand url
  | .hloader => c.hloaderCommand url

/-- The command line of a test case. -/
def command (c : TestCase) (url : String) : Except Failure (List String) :=
  c.commandFor url c.tool

end TestCase
end IngressBench
