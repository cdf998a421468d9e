import IngressBench.CommandLine.Flag

/-!
What the command line tells about itself, for a terminal of eighty columns.
-/
namespace IngressBench.CommandLine

def programName : String := "ingress-perf"

def version : String := "0.1.0"

/-! ### The program -/

def helpFlag : Flag := ⟨["-h", "--help"], false⟩

def programFlags : List Flag := [helpFlag]

def programUsage : String :=
  "usage: ingress-perf [-h] \x7brun,version\x7d ...\n"

def programHelp : String :=
  programUsage ++ "\n" ++
  "Benchmark the cluster ingress layer\n\n" ++
  "positional arguments:\n" ++
  "  \x7brun,version\x7d\n" ++
  "    run          Run the benchmark\n" ++
  "    version      Print the version\n\n" ++
  "options:\n" ++
  "  -h, --help     show this help message and exit\n"

/-! ### The command `version` -/

def versionUsage : String :=
  "usage: ingress-perf version [-h]\n"

def versionHelp : String :=
  versionUsage ++ "\n" ++
  "options:\n" ++
  "  -h, --help  show this help message and exit\n"

/-! ### The command `run` -/

def caseFlag : Flag := ⟨["--cfg"], true⟩

def uuidFlag : Flag := ⟨["--uuid"], true⟩

def cleanupFlag : Flag := ⟨["--cleanup"], false⟩

def podMetricsFlag : Flag := ⟨["--pod-metrics"], false⟩

/-- The flags that set something, each with the name of the setting. -/
def settingFlags : List (Flag × String) :=
  [(⟨["--namespace"], true⟩, "namespace"), (⟨["--es-server"], true⟩, "es_server"),
    (⟨["--es-index"], true⟩, "es_index"), (⟨["--output-dir"], true⟩, "results_dir"),
    (podMetricsFlag, "pod_metrics"), (⟨["--log-level"], true⟩, "log_level")]

def runFlags : List Flag :=
  [helpFlag, caseFlag, uuidFlag, cleanupFlag] ++ settingFlags.map Prod.fst

def runUsage : String :=
  "usage: ingress-perf run [-h] --cfg CFG [--uuid UUID] [--cleanup]\n" ++
  "                        [--namespace NAMESPACE] [--es-server ES_SERVER]\n" ++
  "                        [--es-index ES_INDEX] [--output-dir OUTPUT_DIR]\n" ++
  "                        [--pod-metrics] [--log-level LOG_LEVEL]\n"

def runHelp : String :=
  runUsage ++ "\n" ++
  "options:\n" ++
  "  -h, --help            show this help message and exit\n" ++
  "  --cfg CFG             YAML file with the test cases\n" ++
  "  --uuid UUID           Run identifier (random by default)\n" ++
  "  --cleanup             Delete the benchmark assets at the end\n" ++
  "  --namespace NAMESPACE\n" ++
  "                        Benchmark namespace\n" ++
  "  --es-server ES_SERVER\n" ++
  "                        Elasticsearch URL for streaming indexing\n" ++
  "  --es-index ES_INDEX   Elasticsearch index\n" ++
  "  --output-dir OUTPUT_DIR\n" ++
  "                        Directory for local batch indexing\n" ++
  "  --pod-metrics         Collect router metrics\n" ++
  "  --log-level LOG_LEVEL\n" ++
  "                        Logging level\n"

end IngressBench.CommandLine
