import IngressBench.Document.Use
import IngressBench.Json.Reading
import IngressBench.Program

/-!
Queries to a metrics server. An answer counts only with a status that is no error, a JSON body, and
the word `success` inside it.
-/
namespace IngressBench

/-- A metrics server and how it is asked. -/
structure MetricsServer where
  url : String
  token : Option String := none
  verify : Bool := false
  timeout : Number := .real 30.0

namespace MetricsServer

variable {τ : Type}

/-- A server at an address; slashes at its end say nothing. -/
def ofUrl (url : String) (token : Option String) : MetricsServer where
  url := String.ofList (url.toList.reverse.dropWhile (· == '/')).reverse
  token := token

/-- What a request carries to be let in; an empty token carries nothing. -/
def authorization (server : MetricsServer) : Option String :=
  (server.token.filter fun t => !t.isEmpty).map ("Bearer " ++ ·)

/-- The address of queries. -/
def queryUrl (server : MetricsServer) : String :=
  server.url ++ "/api/v1/query"

/-- The fault of an answer's status, if it is an error. -/
def statusFault (url : String) (answer : HttpAnswer) : Option HttpFault :=
  let sentence (whose : String) : HttpFault :=
    .status s!"{answer.status} {whose} Error: {answer.reason} for url: {url}"
  if 400 ≤ answer.status ∧ answer.status < 500 then some (sentence "Client")
  else if 500 ≤ answer.status ∧ answer.status < 600 then some (sentence "Server")
  else none

/-- The document of an answer's body. -/
def payload (body : String) : Except Failure Document :=
  match Json.ofChars (some digitLimit) body.toList with
  | .ok d => .ok d
  | .error fault =>
    let sentence := fault.message body.toList
    match fault with
    | .problem .. => .error (.http (.body sentence))
    | .digits _ => .error (.value sentence)

/-- The result inside a document. -/
def resultOf (d : Document) : Except Failure Document := do
  if ((← d.lookUp "status").bind Document.text?) = some "success" then
    (← d.under "data").under "result"
  else
    let why := (← d.lookUp "error").getD (.text "unknown error")
    throw (.runtime s!"Prometheus query failed: {why.plain}")

/-- The result of an answer. -/
def read (url : String) (answer : HttpAnswer) : Except Failure Document :=
  match statusFault url answer with
  | some fault => .error (.http fault)
  | none => payload answer.body >>= resultOf

/-- The result of a query, at a time if one is given. -/
def query (server : MetricsServer) (expr : String) (time : Option Document := none) :
    Action τ Document := do
  let call : HttpCall := {
    url := server.queryUrl, query := expr, time, timeout := server.timeout, verify := server.verify
    authorization := server.authorization }
  match ← Action.ask (.http call) with
  | .ok answer => Action.ofExcept (read server.queryUrl answer)
  | .error fault => throw (.http fault)

/-- The number that a result starts with, nothing when the result is empty. -/
def scalarOf (result : Document) : Except Failure (Option Float) := do
  if !result.truthy then return none
  let sample ← (← result.atPosition 0).under "value"
  return some (← (← sample.atPosition 1).toFloat)

/-- The number that a query's result starts with. -/
def queryScalar (server : MetricsServer) (expr : String) (time : Option Document := none) :
    Action τ (Option Float) := do
  Action.ofExcept (scalarOf (← server.query expr time))

end MetricsServer
end IngressBench
