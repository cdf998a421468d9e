import IngressBench.Cluster.Subdomain
import IngressBench.File.Path
import IngressBench.Record.Intake
import IngressBench.Settings.Variables
import IngressBench.Text.Case

/-!
Settings of a run. A setting is given directly, by a variable of the environment, by a variable of a
file, or not at all; the first of these that holds it decides. Names are the same in any case, and
variables have a prefix. A name that no setting has is an issue when it was given directly or stands in
the file; the environment may hold others.
-/
namespace IngressBench

/-- What surrounds a run: a home directory, the variables of the environment, and the text of a file
of variables. -/
structure Environment where
  home : String
  /-- The values of variables, with their names. -/
  values : List (String × String) := []
  file : Option String := none

/-- The settings of a run; times are in seconds. -/
structure Settings where
  kubeconfig : Option String := none
  ns : String := "ingress-perf"
  poolSize : Nat := 200
  pollInterval : Float := 1.0
  readinessTimeout : Float := 60.0
  cleanupTimeout : Float := 600.0
  tuningTimeout : Float := 300.0
  searchServer : Option String := none
  searchIndex : String := "ingress-performance"
  verifyCerts : Bool := false
  resultsDir : Option String := none
  metricsUrl : Option String := none
  metricsToken : Option String := none
  podMetrics : Bool := false
  logLevel : String := "INFO"

namespace Settings

open Record

/-! ### Sources -/

/-- The names of all settings, in order. -/
def names : List String :=
  ["kubeconfig", "namespace", "api_pool_maxsize", "poll_interval", "readiness_timeout",
    "cleanup_timeout", "tuning_timeout", "es_server", "es_index", "es_verify_certs", "results_dir",
    "prometheus_url", "prometheus_token", "pod_metrics", "log_level"]

/-- What stands in front of a setting's name in the name of its variable. -/
def variablePrefix : String := "ingress_perf_"

/-- Variables with their names in lower case; the last of two equal names decides. -/
def lowered (bs : List Variables.Binding) : List Variables.Binding :=
  bs.foldl (fun bound (n, v) => Variables.bind bound (Text.lower n) v) []

/-- The variables of the environment, by their names in lower case. -/
def environmentOf (env : Environment) : List Variables.Binding :=
  lowered (env.values.map fun (n, v) => (n, some v))

/-- The variables of the file, by their names in lower case. -/
def fileOf (env : Environment) : List Variables.Binding :=
  match env.file with
  | some text => lowered (Variables.read env.values text)
  | none => []

/-- The value of a variable, when it has one. -/
def setBy? (bs : List Variables.Binding) (name : String) : Option Document :=
  ((bs.lookup (variablePrefix ++ name)).join).map .text

/-- A value that is given directly, its name in any case. -/
def direct? (given : Fields) (name : String) : Option Document :=
  (given.lookup name).or ((given.find? fun (n, _) => Text.lower n = name).map Prod.snd)

/-- The values of the settings that are not left at their defaults. -/
def sources (env : Environment) (given : Fields) : Fields :=
  let surroundings := environmentOf env
  let file := fileOf env
  names.filterMap fun name =>
    ((direct? given name).or ((setBy? surroundings name).or (setBy? file name))).map (name, ·)

/-- The names in the file that no setting has. Names without a value do not count. -/
def fileExtras (env : Environment) : List String :=
  (fileOf env).filterMap fun (n, v) =>
    let known := names.contains n || names.any fun name => variablePrefix ++ name = n
    if (v.getD "").isEmpty || known then none else some n

/-- The names given directly that no setting has. -/
def directExtras (given : Fields) : List String :=
  (given.map Prod.fst).filter fun n => !names.contains (Text.lower n)

/-- The names that no setting has. -/
def extras (env : Environment) (given : Fields) : List String :=
  let fromFile := fileExtras env
  fromFile ++ (directExtras given).filter fun n => !fromFile.contains n

/-! ### Reading -/

/-- A path, with the home directory in place of a leading tilde. -/
def pathField (home : String) (fields : Fields) (name : String) : Intake (Option String) :=
  match fields.lookup name with
  | none | some .null => return none
  | some (.text s) =>
    match Path.expanded? home s with
    | some path => return some path
    | none => throw (.runtime "Could not determine home directory.")
  | some _ => do
    note name .notPath
    return none

/-- The name of a namespace. -/
def asNamespace (d : Document) : Except Cause String := do
  let s ← asText d
  if Subdomain.accepts s then return s
  else throw (.rule s!"invalid namespace {Text.quoted s}: must be a DNS-1123 subdomain")

/-- A number above zero. -/
def asPeriod (d : Document) : Except Cause Float := do
  positive (← asNumber d)

/-- The settings among named values. -/
def intake (home : String) (fields : Fields) : Intake Settings := do
  let kubeconfig ← pathField home fields "kubeconfig"
  let ns ← optional fields "namespace" "ingress-perf" asNamespace
  let poolSize ← optional fields "api_pool_maxsize" 200 fun d => (atLeast 1 d).map Int.toNat
  let pollInterval ← optional fields "poll_interval" 1.0 asPeriod
  let readinessTimeout ← optional fields "readiness_timeout" 60.0 asPeriod
  let cleanupTimeout ← optional fields "cleanup_timeout" 600.0 asPeriod
  let tuningTimeout ← optional fields "tuning_timeout" 300.0 asPeriod
  let searchServer ← optional fields "es_server" none (orNothing asText)
  let searchIndex ← optional fields "es_index" "ingress-performance" asText
  let verifyCerts ← optional fields "es_verify_certs" false asTruth
  let resultsDir ← pathField home fields "results_dir"
  let metricsUrl ← optional fields "prometheus_url" none (orNothing asText)
  let metricsToken ← optional fields "prometheus_token" none (orNothing asText)
  let podMetrics ← optional fields "pod_metrics" false asTruth
  let logLevel ← optional fields "log_level" "INFO" fun d => (asText d).map Text.upper
  return {
    kubeconfig, ns, poolSize, pollInterval, readinessTimeout, cleanupTimeout, tuningTimeout
    searchServer, searchIndex, verifyCerts, resultsDir, metricsUrl, metricsToken, podMetrics
    logLevel }

/-- The settings that hold in an environment when some values are given directly. -/
def read (env : Environment) (given : Fields) : Except Failure Settings :=
  finish "Settings" do
    let settings ← intake env.home (sources env given)
    for name in extras env given do
      note name .extra
    return settings

/-- Settings as a document. -/
def document (s : Settings) : Document :=
  .object [("kubeconfig", .ofText? s.kubeconfig), ("namespace", .text s.ns),
    ("api_pool_maxsize", .int s.poolSize), ("poll_interval", .real s.pollInterval),
    ("readiness_timeout", .real s.readinessTimeout), ("cleanup_timeout", .real s.cleanupTimeout),
    ("tuning_timeout", .real s.tuningTimeout), ("es_server", .ofText? s.searchServer),
    ("es_index", .text s.searchIndex), ("es_verify_certs", .bool s.verifyCerts),
    ("results_dir", .ofText? s.resultsDir), ("prometheus_url", .ofText? s.metricsUrl),
    ("prometheus_token", .ofText? s.metricsToken), ("pod_metrics", .bool s.podMetrics),
    ("log_level", .text s.logLevel)]

end Settings
end IngressBench
