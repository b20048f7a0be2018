import WorkerMachine.Machine.Gate
import WorkerMachine.Machine.Journal
import WorkerMachine.Machine.Policy
import WorkerMachine.Process.Basic
import WorkerMachine.Program.Basic
import WorkerMachine.Program.Constant
import WorkerMachine.Response
import WorkerMachine.Trace
/-!
# The state of a machine

Everything that the threads of a machine share and change.  What a machine is set up with and never
changes is kept apart.
-/

namespace WorkerMachine

/-- What a machine is set up with. -/
structure Setup where
  program : Program
  policy : Policy
  traceStyle : TraceStyle
  deriving Inhabited

/-- Counts of what invocations did. -/
structure Tallies where
  contexts : Nat := 0
  scheduled : Nat := 0
  inCaller : Nat := 0
  responses : Nat := 0
  inits : Nat := 0
  deriving DecidableEq, Repr, Inhabited

abbrev Properties := Table String Value

/-- What happens to workers and inits in the course of a run. -/
inductive Happening where
  /-- The worker of a task begins to run on the context of the task. -/
  | started (task : Task)
  /-- The body of a task's worker has ended in this way, has left its context like this, and hands in
  its contribution. -/
  | ended (task : Task) (outcome : Except Interruption WorkerExit) (after : Context)
  /-- The init unit of a package is called from a context. -/
  | initCalled (package : String) (context : ContextId)

/-- The shared state of a machine. -/
structure Machine where
  arenas : Table ArenaKey Arena
  properties : Table PropertiesKey Properties
  globals : RegisterFile
  pending : Table String (List ConstantAttribute)
  resolved : Table Nat Constant
  gate : Gate
  responses : Array Response
  tallies : Tallies
  /-- Tasks that wait in the queue of a rehearsing scheduler, the one queued first in front. -/
  queue : List Task
  /-- Tasks that wait for threads, the one that has waited longest in front. -/
  spawned : List Task
  /-- The number of tasks that the scheduler has taken. -/
  taken : Nat
  /-- The number of tasks that the scheduler has not counted as finished. -/
  active : Nat
  /-- The number of those among them whose threads have ended in a panic. -/
  lost : Nat
  /-- The number of the next thread. -/
  nextThread : ThreadId
  /-- The events that have been signalled. -/
  events : List String
  /-- The journal, latest entry first. -/
  journal : List JournalEntry
  /-- What has happened to workers and inits, latest first.  Nothing that runs on the machine looks
  at it. -/
  history : List Happening
  deriving Inhabited

namespace Machine

def ownArena : ArenaKey := 0

def ownProperties : PropertiesKey := 0

end Machine

def ContextView.sharesProperties (view : ContextView) : Bool :=
  view.context.properties = Machine.ownProperties

namespace Machine

/-- A machine before its first call. -/
def start (program : Program) (properties : Properties) : Machine where
  arenas := Table.empty.insert ownArena {}
  properties := Table.empty.insert ownProperties properties
  globals := .ofSizes program.globalSizes
  pending := .empty
  resolved := .empty
  gate := {}
  responses := #[]
  tallies := {}
  queue := []
  spawned := []
  taken := 0
  active := 0
  lost := 0
  nextThread := 1
  events := []
  journal := []
  history := []

/-! ## Arenas -/

def arena (machine : Machine) (key : ArenaKey) : Arena :=
  (machine.arenas.get? key).getD {}

def setArena (machine : Machine) (key : ArenaKey) (arena : Arena) : Machine :=
  { machine with arenas := machine.arenas.insert key arena }

/-- The state of a context in the arena of the machine itself. -/
def state? (machine : Machine) (id : ContextId) : Option ContextState :=
  (machine.arena ownArena).state? id

def inArena {Answer : Type} (key : ArenaKey) (operation : Arena → Answer × Arena)
    (machine : Machine) : Answer × Machine :=
  let (answer, arena) := operation (machine.arena key)
  (answer, machine.setArena key arena)

def alterArena (key : ArenaKey) (change : Arena → Arena) (machine : Machine) : Machine :=
  machine.setArena key (change (machine.arena key))

def addArena (machine : Machine) : ArenaKey × Machine :=
  (machine.arenas.size, machine.setArena machine.arenas.size {})

def view (machine : Machine) (context : Context) : ContextView :=
  let own := machine.arena ownArena
  { context := context
    state := (machine.arena context.arena).state? context.id
    label := (own.record? context.id).map ContextRecord.label
    arenaParent := own.parent? context.id
    parentState := context.parent.bind own.state?
    ancestry := own.ancestry context.id }

/-! ## Properties -/

def propertiesOf (machine : Machine) (key : PropertiesKey) : Properties :=
  (machine.properties.get? key).getD .empty

def property? (machine : Machine) (key : PropertiesKey) (name : String) : Option Value :=
  (machine.propertiesOf key).get? name

/-- Set a property, and tell the value it had. -/
def setProperty (key : PropertiesKey) (name : String) (value : Value) (machine : Machine) :
    Option Value × Machine :=
  (machine.property? key name,
    { machine with
      properties := machine.properties.insert key ((machine.propertiesOf key).insert name value) })

/-- Remove a property, and tell the value it had. -/
def removeProperty (key : PropertiesKey) (name : String) (machine : Machine) :
    Option Value × Machine :=
  (machine.property? key name,
    { machine with
      properties := machine.properties.insert key ((machine.propertiesOf key).erase name) })

/-- The number of tasks that the scheduler has taken and not finished. -/
def unfinished (machine : Machine) : Nat :=
  machine.queue.length + machine.active

/-- The number of tasks that run on threads of their own. -/
def occupied (machine : Machine) : Nat :=
  machine.active - machine.spawned.length - machine.lost

def addProperties (machine : Machine) : PropertiesKey × Machine :=
  (machine.properties.size,
    { machine with properties := machine.properties.insert machine.properties.size .empty })

/-! ## Responses -/

def response (machine : Machine) (id : ResponseId) : Response :=
  (machine.responses[id]?).getD default

def openResponse (returns : Layout) (waits : Bool) (expected : Nat) (machine : Machine) :
    ResponseId × Machine :=
  (machine.responses.size,
    { machine with
      responses := machine.responses.push (Response.opening returns waits expected)
      tallies := { machine.tallies with responses := machine.tallies.responses + 1 } })

def contribute (id : ResponseId) (worker : ContextId) (outcome : WorkerOutcome)
    (result : RegisterFile) (machine : Machine) : Except Overrun Bool × Machine :=
  let (response, accepted) := (machine.response id).contribute worker outcome result
  (accepted, { machine with responses := machine.responses.setIfInBounds id response })

/-! ## Constants -/

def deferConstant (constant : ConstantAttribute) (machine : Machine) : Machine :=
  let waiting := (machine.pending.get? constant.package).getD []
  { machine with pending := machine.pending.insert constant.package (waiting ++ [constant]) }

def takePending (package : String) (machine : Machine) : List ConstantAttribute × Machine :=
  ((machine.pending.get? package).getD [],
    { machine with pending := machine.pending.insert package [] })

/-- Put attributes back in front of those that have come in since. -/
def restorePending (package : String) (attributes : List ConstantAttribute) (machine : Machine) :
    Machine :=
  let later := (machine.pending.get? package).getD []
  { machine with pending := machine.pending.insert package (attributes ++ later) }

/-- Give a constant its value, unless it has one. -/
def resolveConstant (machine : Machine) (cell : Nat) (value : Constant) : Machine :=
  if machine.resolved.contains cell then machine
  else { machine with resolved := machine.resolved.insert cell value }

/-! ## The journal -/

def write (entry : JournalEntry) (machine : Machine) : Machine :=
  { machine with journal := entry :: machine.journal }

def record (happening : Happening) (machine : Machine) : Machine :=
  { machine with history := happening :: machine.history }

end Machine

end WorkerMachine
