import IngressBench.Benchmark.Aggregate
import IngressBench.Benchmark.Command
import IngressBench.Benchmark.Load
import IngressBench.Cluster.Assets
import IngressBench.Cluster.Call
import IngressBench.Cluster.Discovery
import IngressBench.Cluster.Metadata
import IngressBench.Cluster.Object
import IngressBench.Cluster.Request
import IngressBench.Cluster.Role
import IngressBench.Cluster.Snapshot
import IngressBench.Cluster.Subdomain
import IngressBench.CommandLine.Command
import IngressBench.CommandLine.Flag
import IngressBench.CommandLine.Help
import IngressBench.CommandLine.Run
import IngressBench.Decimal.Binary
import IngressBench.Decimal.Layout
import IngressBench.Decimal.Power
import IngressBench.Decimal.Reading
import IngressBench.Decimal.Shortest
import IngressBench.Deploy
import IngressBench.Document
import IngressBench.Document.Shown
import IngressBench.Document.Use
import IngressBench.Duration
import IngressBench.Failure
import IngressBench.File.Call
import IngressBench.File.Path
import IngressBench.File.Volume
import IngressBench.Indexing.Address
import IngressBench.Indexing.Directory
import IngressBench.Indexing.Sink
import IngressBench.Indexing.Store
import IngressBench.Json.Reading
import IngressBench.Json.Writing
import IngressBench.Keeping
import IngressBench.Main
import IngressBench.Metrics.Server
import IngressBench.Moment
import IngressBench.Moment.Reading
import IngressBench.Number
import IngressBench.Program
import IngressBench.Proofs.Program.Asks
import IngressBench.Proofs.Program.Leaves
import IngressBench.Proofs.Program.Standing
import IngressBench.Proofs.Readiness.Await
import IngressBench.Proofs.Readiness.Check
import IngressBench.Proofs.Wait
import IngressBench.Readiness.Await
import IngressBench.Readiness.Check
import IngressBench.Readiness.Diagnostic
import IngressBench.Readiness.Record
import IngressBench.Reconcile
import IngressBench.Record.Intake
import IngressBench.Record.Issue
import IngressBench.Record.Scalar
import IngressBench.Result
import IngressBench.Run.Course
import IngressBench.Run.State
import IngressBench.Run.Team
import IngressBench.Session
import IngressBench.Settings
import IngressBench.Settings.Variables
import IngressBench.Suite
import IngressBench.Teardown
import IngressBench.TestCase
import IngressBench.Text.Blank
import IngressBench.Text.Case
import IngressBench.Text.Digit
import IngressBench.Text.Line
import IngressBench.Text.Printable
import IngressBench.Text.Quoted
import IngressBench.Text.Range
import IngressBench.Time
import IngressBench.Tuning.Apply
import IngressBench.Tuning.Profile
import IngressBench.Wait
import IngressBench.World
import IngressBench.World.Ideal
import IngressBench.Yaml.Cursor
import IngressBench.Yaml.Node
import IngressBench.Yaml.Node.Tree
import IngressBench.Yaml.Scalar
import IngressBench.Yaml.Token
import IngressBench.Yaml.Token.Name
import IngressBench.Yaml.Token.Row
import IngressBench.Yaml.Token.Scalar
import IngressBench.Yaml.Value
import IngressBench.Proofs.Reconcile
import IngressBench.Proofs.Deploy
import IngressBench.Proofs.Teardown
import IngressBench.Proofs.Cluster.Discovery
import IngressBench.Proofs.Indexing.Sink
import IngressBench.Proofs.Run.Team
import IngressBench.Proofs.Run.Course
import IngressBench.Proofs.Program.Keeps
import IngressBench.Proofs.Run.Stages
import IngressBench.Proofs.Run.FailFast
import IngressBench.Proofs.Run.Sample
import IngressBench.Proofs.Run.Replicas
import IngressBench.Proofs.Run.Delivery
import IngressBench.Proofs.Benchmark.Load
import IngressBench.Proofs.Run.Ownership
import IngressBench.Proofs.Readiness.WellFormed
import IngressBench.Proofs.Signals.Plain
import IngressBench.Proofs.Signals.Heeds
import IngressBench.Proofs.Signals.Waiting
import IngressBench.Proofs.Signals.Helpers
import IngressBench.Proofs.Signals.Storing
import IngressBench.Proofs.Run.Signals
import IngressBench.Proofs.Cluster.Objects
import IngressBench.Proofs.Run.Handling
import IngressBench.Proofs.Run.Removal
import IngressBench.Proofs.Run.Recorded
import IngressBench.Proofs.Run.Diary
import IngressBench.Proofs.Run.Phases
import IngressBench.Proofs.Stop
import IngressBench.Proofs.Run.Cancellation
import IngressBench.Proofs.Program.Only
import IngressBench.Proofs.Program.Beside
import IngressBench.Proofs.Program.Twins
import IngressBench.Proofs.Program.Pauses
import IngressBench.Proofs.Program.Clock
import IngressBench.Proofs.Program.Makes
import IngressBench.Proofs.Watch
import IngressBench.Proofs.Run.Register
import IngressBench.Proofs.Run.Profiles
import IngressBench.Proofs.Run.Twins
import IngressBench.Proofs.Run.Losses
import IngressBench.Proofs.Run.Verdicts
import IngressBench.Proofs.Run.Spells
import IngressBench.Proofs.Run.Patience
import IngressBench.Proofs.Scaling
import IngressBench.Proofs.Suite
import IngressBench.Proofs.Result
import IngressBench.Proofs.Benchmark.Steps
import IngressBench.Proofs.Benchmark.Faults
import IngressBench.Proofs.Run.Acts
import IngressBench.Proofs.CommandLine.Account
import IngressBench.Proofs.CommandLine.ExitCode
import IngressBench.Proofs.Schedule
import IngressBench.Proofs.Readiness.Pending
import IngressBench.Proofs.Readiness.Diagnosis
import IngressBench.Proofs.Readiness.Readings
import IngressBench.Proofs.Readiness.Agreement
import IngressBench.Proofs.Readiness.NotReady
import IngressBench.Proofs.Outcome
import IngressBench.Proofs.TestCase
import IngressBench.Proofs.Program.Ends
import IngressBench.Proofs.Benchmark.Routers
import IngressBench.Proofs.Benchmark.Preparation
import IngressBench.Proofs.Benchmark.Failing
import IngressBench.Proofs.Benchmark.Rounds
import IngressBench.Proofs.Benchmark.Metering
import IngressBench.Proofs.Text.Trim
import IngressBench.Proofs.Decimal.Reading
import IngressBench.Proofs.Tuning.Options
import IngressBench.Proofs.Tuning.Grammar
import IngressBench.Proofs.Tuning.RoundTrip
import IngressBench.Proofs.Cluster.Subdomain
import IngressBench.Proofs.Decimal.Binary
import IngressBench.Proofs.Decimal.Nearest
import IngressBench.Proofs.Duration
import IngressBench.Proofs.Benchmark.Command
import IngressBench.Proofs.Readiness.Missing
import IngressBench.Proofs.Readiness.Ends
import IngressBench.Proofs.Tuning.Apply
import IngressBench.Proofs.Cluster.Inventory
import IngressBench.Proofs.Cluster.Vigil
import IngressBench.Proofs.File.Path
import IngressBench.Proofs.File.Volume
import IngressBench.Proofs.Json.Pages
import IngressBench.Proofs.Indexing.Directory
import IngressBench.Proofs.Indexing.Batch
import IngressBench.Proofs.Readiness.Selector
import IngressBench.Proofs.Benchmark.Summary
import IngressBench.Proofs.Cluster.Roles
import IngressBench.Proofs.Cluster.Identity
