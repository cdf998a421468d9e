import IngressBench.Cluster.Call
import IngressBench.File.Call
import IngressBench.Result

/-!
Programs: what a run does, step by step, whatever its surroundings answer. A program is done, or it
makes a call and goes on with the reply. Time passes only through sleeping, pausing and the
surroundings; a pause is over early, and says so, once the run is stopped. `τ` is the type of times.
-/
namespace IngressBench

/-- How much a line of the log matters. -/
inductive Level where
  | debug
  | info
  | warning
  | error
deriving Repr, DecidableEq

def Level.name : Level → String
  | debug => "DEBUG"
  | info => "INFO"
  | warning => "WARNING"
  | error => "ERROR"

/-! ### Questions -/

/-- A command inside a pod, whose output is asked for. -/
structure ExecCall where
  pod : Option String
  ns : String
  command : List String
  withErrors : Bool

/-- A request to a metrics server. -/
structure HttpCall where
  url : String
  query : String
  time : Option Document
  timeout : Number
  verify : Bool
  authorization : Option String

/-- The answer of a metrics server. -/
structure HttpAnswer where
  status : Int
  reason : String
  body : String

/-- How a bulk request ends: so many documents stored, so many refused, or not at all. -/
inductive BulkAnswer where
  | stored (count : Document)
  | refused (count : Nat)
  | failed (failure : Failure)

/-- Where the access to a cluster comes from. -/
inductive Access where
  | file (path : String)
  | inCluster
deriving Repr, DecidableEq

/-- Where a line of text goes. -/
inductive Stream where
  | output
  | errors
deriving Repr, DecidableEq

/-- A question to the surroundings of a run. -/
inductive Question where
  | api (call : ApiCall)
  | exec (call : ExecCall)
  | http (call : HttpCall)
  | file (call : FileCall)
  /-- The keys that come with an access. -/
  | access (from_ : Access)
  /-- A connection that the surroundings make themselves. -/
  | connect (ns : String)
  /-- The time at which a result is made. -/
  | stamp
  /-- An identifier that no other run has. -/
  | freshId
  /-- An indexer of the surroundings. -/
  | index (documents : Document) (label : Option String)
  /-- A request of a search server to store documents. -/
  | bulk (index : String) (documents : List Document)
  /-- A driver of the surroundings. -/
  | drive (case : TestCase) (metadata : ClusterMetadata) (podMetrics : Bool)
  /-- A tuner of the surroundings. -/
  | tune (profile : String)
  | compare (case : TestCase) (results : List Result)
  /-- A condition of the surroundings. -/
  | check
  | say (stream : Stream) (text : String)
  /-- The least level of the log, by its name. -/
  | setLevel (name : String)
  | handleSignals
  /-- A run is about to start. -/
  | announce (run : String) (cleanup : Bool) (cases : List TestCase) (settings : Document)
      (sink : Option String)

/-- The keys of an access by their names. -/
abbrev Keys := List (String × Option String)

/-- What a question is answered with. -/
def Question.Reply : Question → Type
  | api call => Except ApiFault call.Reply
  | exec _ => Except ApiFault Document
  | http _ => Except HttpFault HttpAnswer
  | file call => call.Reply
  | access _ | connect _ => Except Failure Keys
  | stamp => Moment
  | freshId => String
  | index .. => Except Failure Document
  | bulk .. => BulkAnswer
  | drive .. => Except Failure (List Result)
  | tune _ => Except Failure Unit
  | compare .. => Except Failure Bool
  | check => Except Failure Bool
  | say .. | setLevel _ | handleSignals | announce .. => Unit

/-! ### Calls -/

/-- A call of a program. -/
inductive Call (τ : Type) where
  | clock
  | sleep (time : τ)
  | pause (time : τ)
  | log (level : Level) (text : String)
  | ask (question : Question)

/-- What a call is answered with; a pause tells whether the run is stopped. -/
def Call.Reply {τ : Type} : Call τ → Type
  | clock => τ
  | sleep _ | log .. => Unit
  | pause _ => Bool
  | ask question => question.Reply

/-! ### Programs -/

/-- A program that ends with a value. -/
inductive Program (τ : Type) (α : Type) where
  | done (value : α)
  | call (call : Call τ) (next : call.Reply → Program τ α)

namespace Program

variable {τ α β : Type}

/-- A program, and after it another one that depends on its value. -/
def bind : Program τ α → (α → Program τ β) → Program τ β
  | done a, f => f a
  | call c next, f => call c fun reply => (next reply).bind f

instance : Monad (Program τ) where
  pure := done
  bind := bind

theorem bind_done (p : Program τ α) : p.bind done = p := by
  induction p with
  | done a => rfl
  | call c next ih => simp [bind, ih]

theorem bind_assoc {γ : Type} (p : Program τ α) (f : α → Program τ β) (g : β → Program τ γ) :
    (p.bind f).bind g = p.bind fun a => (f a).bind g := by
  induction p with
  | done a => rfl
  | call c next ih => simp [bind, ih]

instance : LawfulMonad (Program τ) :=
  LawfulMonad.mk' _ (fun p => bind_done p) (fun _ _ => rfl) bind_assoc

/-- The program of one call. -/
def ask (c : Call τ) : Program τ c.Reply :=
  call c done

end Program

/-! ### Steps that can fail -/

/-- A program that can fail. -/
abbrev Action (τ : Type) (α : Type) := ExceptT Failure (Program τ) α

namespace Action

variable {τ α : Type}

/-- The step of one call. -/
def perform (c : Call τ) : Action τ c.Reply :=
  ExceptT.lift (Program.ask c)

def clock : Action τ τ := perform .clock

def sleep (time : τ) : Action τ Unit := perform (.sleep time)

/-- Waits, and tells whether the run is stopped. -/
def pause (time : τ) : Action τ Bool := perform (.pause time)

def log (level : Level) (text : String) : Action τ Unit := perform (.log level text)

/-- The step of one question. -/
def ask (q : Question) : Action τ q.Reply := perform (.ask q)

/-- A value, or a failure. -/
def ofExcept (e : Except Failure α) : Action τ α := ExceptT.mk (pure e)

/-- A call to the cluster, its fault handed on. -/
def api (call : ApiCall) : Action τ (Except ApiFault call.Reply) := ask (.api call)

/-- A step, its failure handed on as a value. -/
def attempt (a : Action τ α) : Action τ (Except Failure α) :=
  ExceptT.lift a.run

end Action

/-- The failure of a fault of the cluster. -/
def ApiFault.failure : ApiFault → Failure
  | rejected status reason => .rejected status reason
  | unreachable text => .unreachable text

/-- A call to the cluster whose fault is a failure. -/
def Action.apiOrFail {τ : Type} (call : ApiCall) : Action τ call.Reply := do
  match ← Action.api call with
  | .ok reply => return reply
  | .error fault => throw fault.failure

end IngressBench
