import WorkerMachine.CommandLine.Argument
import WorkerMachine.CommandLine.Execution
import WorkerMachine.CommandLine.Folder
import WorkerMachine.CommandLine.Request
import WorkerMachine.CommandLine.SafePath
import WorkerMachine.Configuration
import WorkerMachine.Context.Arena
import WorkerMachine.Context.Basic
import WorkerMachine.Context.State
import WorkerMachine.Decimal.Binary64
import WorkerMachine.Decimal.Reading
import WorkerMachine.Decimal.Shortest
import WorkerMachine.Decimal.Style
import WorkerMachine.Fault
import WorkerMachine.Host.Calls
import WorkerMachine.Host.Contexts
import WorkerMachine.Host.Globals
import WorkerMachine.Host.Session
import WorkerMachine.Machine.Basic
import WorkerMachine.Machine.Effect
import WorkerMachine.Machine.Gate
import WorkerMachine.Machine.Initialization
import WorkerMachine.Machine.Invocation
import WorkerMachine.Machine.Journal
import WorkerMachine.Machine.Policy
import WorkerMachine.Machine.Runner
import WorkerMachine.Machine.Station
import WorkerMachine.Machine.Summary
import WorkerMachine.Main
import WorkerMachine.Manifest.Basic
import WorkerMachine.Manifest.Listing
import WorkerMachine.Manifest.Loading
import WorkerMachine.Process.Basic
import WorkerMachine.Process.Pool
import WorkerMachine.Program.Basic
import WorkerMachine.Program.Callable
import WorkerMachine.Program.Constant
import WorkerMachine.Proofs.Agreement.Conclusions
import WorkerMachine.Proofs.Agreement.Runs
import WorkerMachine.Proofs.Agreement.Shapes
import WorkerMachine.Proofs.Arguments.Running
import WorkerMachine.Proofs.Balance.Runs
import WorkerMachine.Proofs.Constants.Atomicity
import WorkerMachine.Proofs.Context.Histories
import WorkerMachine.Proofs.Failing.Packages
import WorkerMachine.Proofs.Gate.Conformance
import WorkerMachine.Proofs.Gate.Registration
import WorkerMachine.Proofs.Gate.Reports
import WorkerMachine.Proofs.Invocation.Naming
import WorkerMachine.Proofs.Manifest.Rearrangement
import WorkerMachine.Proofs.Registers.Independence
import WorkerMachine.Proofs.Registers.Numbering
import WorkerMachine.Proofs.Registers.Seeding
import WorkerMachine.Proofs.Response.Breakdowns
import WorkerMachine.Proofs.Response.Deliveries
import WorkerMachine.Proofs.Response.Escalation
import WorkerMachine.Proofs.Siblings.Interleaving
import WorkerMachine.Proofs.Trace.Reading
import WorkerMachine.Proofs.Truths.Scripts
import WorkerMachine.Registers.File
import WorkerMachine.Registers.Layout
import WorkerMachine.Registers.Marshalling
import WorkerMachine.Registers.Sizes
import WorkerMachine.Response
import WorkerMachine.Scenario.Action
import WorkerMachine.Scenario.Declaration
import WorkerMachine.Script.Instruction
import WorkerMachine.Script.Interpreter
import WorkerMachine.Table
import WorkerMachine.Text.Blank
import WorkerMachine.Text.Utf8
import WorkerMachine.Toml.Assembly
import WorkerMachine.Toml.Basic
import WorkerMachine.Toml.Document
import WorkerMachine.Toml.Moment
import WorkerMachine.Toml.Reader
import WorkerMachine.Toml.Scalar
import WorkerMachine.Trace
import WorkerMachine.Value.Basic
import WorkerMachine.Value.Category
import WorkerMachine.Value.ErrorValue
import WorkerMachine.Value.Identity
import WorkerMachine.Value.Written
