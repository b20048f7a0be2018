import WorkerMachine.Machine.Runner
import WorkerMachine.Process.Pool
/-!
# Sessions of a host

A host works a machine from outside.  It keeps contexts and invocations under names of its own, and
each of its steps runs until the machine has come to rest.
-/

namespace WorkerMachine

/-- A machine, and what its host keeps. -/
structure Session where
  setup : Setup
  interpreter : Interpreter
  machine : Machine
  contexts : Table String Context := .empty
  invocations : Table String Invocation := .empty
  responses : Table String ResponseId := .empty
  /-- All constant attributes in the order in which they were made. -/
  attributes : List ConstantAttribute := []

inductive HostFailure where
  | interrupted (interruption : Interruption)
  | unknownContext (name : String)
  | unknownInvocation (name : String)

/-- A step of the host.  What it has done before it fails stays done. -/
abbrev HostStep := ExceptT HostFailure (StateM Session)

namespace Session

def nestingBound : Nat := 100000

def moveBound : Nat := 1000000000

def hostThread : ThreadId := 0

def stationOf (session : Session) (thread : ThreadId) : Station :=
  session.setup.station session.interpreter thread nestingBound

/-- Start threads for the tasks that wait for one, as far as the policy has threads to allot. -/
def startThreads (session : Session) {Answer : Type} (machine : Machine) :
    List (Work (Option Answer)) × Machine :=
  let (starting, waiting) := session.setup.policy.allot machine.occupied machine.spawned
  let threads := starting.zipIdx machine.nextThread
  (threads.map fun (task, thread) => do
      session.setup.threadOf session.interpreter nestingBound thread task
      return none,
    { machine with
      spawned := waiting
      nextThread := machine.nextThread + starting.length })

/-- Run processes beside each other until the machine is at rest; the answers are in no order. -/
def runBeside {Answer : Type} (session : Session) (works : List (Work Answer)) :
    List Answer × Session :=
  let processes := works.map fun work => do return some (← work)
  let pool := Pool.run session.startThreads moveBound (.ofProcesses session.machine processes)
  (pool.answers, { session with machine := pool.state })

end Session

namespace Host

variable {Answer : Type}

def interrupt (interruption : Interruption) : HostStep Answer :=
  throw (.interrupted interruption)

def work (process : Work Answer) : HostStep Answer := do
  let (answers, after) := (← get).runBeside [process]
  set after
  match answers with
  | answer :: _ => return answer
  | [] => interrupt .exhausted

/-- Go on with what is there, or end the step. -/
def ofOutcome : Except Interruption Answer → HostStep Answer
  | .ok answer => return answer
  | .error interruption => interrupt interruption

def ofExcept : Except Fault Answer → HostStep Answer
  | .ok answer => return answer
  | .error fault => interrupt (.fault fault)

def perform (effect : Effect Answer) : HostStep Answer := do
  ofOutcome (← work effect.run)

def attempt (step : HostStep Answer) : HostStep (Except Fault Answer) :=
  tryCatch (Except.ok <$> step) fun
    | .interrupted (.fault fault) => return .error fault
    | failure => throw failure

def station : HostStep Station :=
  return (← get).stationOf Session.hostThread

def machine : HostStep Machine :=
  return (← get).machine

def read (view : Machine → Answer) : HostStep Answer :=
  return view (← machine)

def alter (operation : Machine → Answer × Machine) : HostStep Answer := do
  let session ← get
  let (answer, machine) := operation session.machine
  set { session with machine := machine }
  return answer

def program : HostStep Program :=
  return (← get).setup.program

def policy : HostStep Policy :=
  return (← get).setup.policy

def unit (package name : String) : HostStep Callable := do
  let (_, found) ← ofExcept ((← program).unit package name)
  return found

/-- Run a step of a session: its answer, what was written into the journal meanwhile, and the
session as it was left. -/
def run (step : HostStep Answer) (session : Session) :
    Except HostFailure Answer × List JournalEntry × Session :=
  let (answer, after) := StateT.run (ExceptT.run step) session
  (answer, after.machine.journal.reverse,
    { after with machine := { after.machine with journal := [] } })

end Host

end WorkerMachine
