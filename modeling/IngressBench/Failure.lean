import IngressBench.Readiness.Diagnostic
import IngressBench.Record.Issue
import IngressBench.Text.Quoted

/-!
How a step can fail. A failure holds its cause; `Failure.message` is the sentence for it. The faults
of the tool itself are grouped by what the tool was doing; the others are failures of the cluster,
of the network and of values of the wrong form.
-/
namespace IngressBench

/-- A reason that may be missing, as sentences show it. -/
def reasonText (reason : Option String) : String :=
  reason.getD "None"

/-! ### Faults of the tool -/

/-- Settings or a suite of test cases that cannot be used. -/
inductive ConfigFault where
  | unreadable (path cause : String)
  | noCases (path : String)
  | notMapping (position : Nat) (path : String)
  | invalidCase (position : Nat) (path : String) (issues : List Issue)
  | invalidSettings (issues : List Issue)
  | searchServer (url cause : String)
  | said (text : String)
deriving Repr, DecidableEq

def ConfigFault.message : ConfigFault → String
  | unreadable path cause => s!"Cannot read config file {path}: {cause}"
  | noCases path => s!"No test cases found under 'config' in {path}"
  | notMapping position path => s!"Test case {position} in {path} is not a mapping"
  | invalidCase position path issues =>
    s!"Invalid test case {position} in {path}: " ++ issueCount "TestCaseConfig" issues
  | invalidSettings issues => "Invalid settings: " ++ issueCount "Settings" issues
  | searchServer url cause => s!"Invalid Elasticsearch server {url}: {cause}"
  | said text => text

/-- A cluster, or a part of it, that cannot be reached. -/
inductive ConnectivityFault where
  | metadata (reason : Option String)
  | unreachable (text : String)
  | clusterObject (plural name reason : String)
  | metricsRoute (reason : String)
  | configuration (reason : String)
  | said (text : String)
deriving Repr, DecidableEq

def ConnectivityFault.message : ConnectivityFault → String
  | metadata reason => s!"Failed to fetch cluster metadata: {reasonText reason}"
  | unreachable text => s!"Cluster API unreachable: {text}"
  | clusterObject plural name reason => s!"Failed to read {plural}/{name}: {reason}"
  | metricsRoute reason => s!"Error fetching prometheus information: {reason}"
  | configuration reason => s!"Failed to load Kubernetes configuration: {reason}"
  | said text => text

/-- A wait that ended before its condition held. -/
inductive WaitFault where
  | timedOut (timeout : String)
  | cancelled
  | said (text : String) (isCancelled : Bool)
deriving Repr, DecidableEq

def WaitFault.message : WaitFault → String
  | timedOut timeout => s!"timed out after {timeout}s"
  | cancelled => "wait cancelled"
  | said text _ => text

def WaitFault.isCancelled : WaitFault → Bool
  | timedOut _ => false
  | cancelled => true
  | said _ c => c

/-- A deployment that did not become ready in time. -/
structure NotReady where
  message : String
  diagnostic : Option Diagnostic
  cancelled : Bool
deriving Repr, DecidableEq

/-- A tuning profile that cannot be applied. -/
inductive TuningFault where
  | badOption (item profile : String)
  | emptyProfile (profile : String)
  | patch (profile : String) (reason : Option String)
  | router (profile cause : String)
  | said (text : String)
deriving Repr, DecidableEq

def TuningFault.message : TuningFault → String
  | badOption item profile =>
    s!"invalid tuning option {Text.quoted item} in profile {Text.quoted profile}"
  | emptyProfile profile => s!"empty tuning profile {Text.quoted profile}"
  | patch profile reason =>
    s!"Failed to apply tuning profile {Text.quoted profile}: {reasonText reason}"
  | router profile cause => s!"Router not ready after applying {Text.quoted profile}: {cause}"
  | said text => text

/-- A test case without results. -/
inductive BenchmarkFault where
  | noOutput
  | pods (expected : Int) (found : Nat)
  | unprepared (cause : String)
  | exec (pod : String) (reason : Option String)
  | output (pod cause : String)
  | said (text : String)
deriving Repr, DecidableEq

def BenchmarkFault.message : BenchmarkFault → String
  | noOutput => "no tool output to aggregate"
  | pods expected found => s!"expected {expected} running client pods, found {found}"
  | unprepared cause => s!"Cannot prepare test case: {cause}"
  | exec pod reason => s!"exec in pod {pod} failed: {reasonText reason}"
  | output pod cause => s!"invalid tool output from pod {pod}: {cause}"
  | said text => text

/-- Documents that could not be stored. -/
inductive IndexingFault where
  | directory (path cause : String)
  | metricName (name : String)
  | write (path cause : String)
  | documents (count : Nat) (index : String)
  | bulk (index cause : String)
  | said (text : String)
deriving Repr, DecidableEq

def IndexingFault.message : IndexingFault → String
  | directory path cause => s!"Cannot create results directory {path}: {cause}"
  | metricName name => s!"Invalid metric name: {name}"
  | write path cause => s!"Failed to write {path}: {cause}"
  | documents count index => s!"{count} documents failed to index in {index}"
  | bulk index cause => s!"Failed to index documents in {index}: {cause}"
  | said text => text

/-! ### Failures -/

/-- How a request to the metrics server fails. -/
inductive HttpFault where
  | connection (text : String)
  | timeout (text : String)
  | status (text : String)
  | body (text : String)
deriving Repr, DecidableEq

def HttpFault.message : HttpFault → String
  | connection text | timeout text | status text | body text => text

/-- A failure. -/
inductive Failure where
  /-- A record with issues. -/
  | invalid (title : String) (issues : List Issue)
  /-- The cluster answered with a status that is no success. -/
  | rejected (status : Int) (reason : Option String)
  /-- The cluster did not answer. -/
  | unreachable (text : String)
  | http (fault : HttpFault)
  | config (fault : ConfigFault)
  | connectivity (fault : ConnectivityFault)
  | wait (fault : WaitFault)
  | notReady (report : NotReady)
  | tuning (fault : TuningFault)
  | benchmark (fault : BenchmarkFault)
  | indexing (fault : IndexingFault)
  | comparison
  /-- A value that its use does not allow. -/
  | value (text : String)
  | runtime (text : String)
  /-- A name that a mapping lacks, between quotes. -/
  | key (shown : String)
  /-- A value of the wrong kind. -/
  | kind (text : String)
  /-- A part that a value does not have. -/
  | part (text : String)
  /-- A position outside a list. -/
  | position (text : String)
  /-- A number outside the range of its form. -/
  | overflow (text : String)
  /-- Bytes that are no text, or a text that has no bytes. -/
  | encoding (text : String)
  /-- The end of the program with an exit code. -/
  | exit (code : Int)
  /-- A failure of another kind, named by whoever reports it. -/
  | other (name text : String)
deriving Repr, DecidableEq

namespace Failure

/-- The sentence for a failure. -/
def message : Failure → String
  | invalid title issues => issueCount title issues
  | rejected status reason => s!"({status})\nReason: {reasonText reason}\n"
  | unreachable text => text
  | http fault => fault.message
  | config fault => fault.message
  | connectivity fault => fault.message
  | wait fault => fault.message
  | notReady report => report.message
  | tuning fault => fault.message
  | benchmark fault => fault.message
  | indexing fault => fault.message
  | comparison => "some benchmark comparisons failed"
  | value text | runtime text | key text | kind text | part text | position text | overflow text
  | encoding text | other _ text => text
  | exit code => toString code

/-- Whether the tool itself raised the failure: every fault with a group of its own. -/
def isOwn : Failure → Bool
  | config _ | connectivity _ | wait _ | notReady _ | tuning _ | benchmark _ | indexing _
  | comparison => true
  | _ => false

/-- Whether a wait ended by the stop of the run. -/
def isCancelled : Failure → Bool
  | wait fault => fault.isCancelled
  | notReady report => report.cancelled
  | _ => false

end Failure
end IngressBench
