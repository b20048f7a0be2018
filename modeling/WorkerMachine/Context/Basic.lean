import WorkerMachine.Context.Arena
import WorkerMachine.Program.Callable
import WorkerMachine.Registers.File
/-!
# Execution contexts

A context is one activation of a worker, or a root on the path of the host.  It owns its registers
and refers to its arena and to its properties, which it may share with other contexts.
-/

namespace WorkerMachine

/-- The number of an arena.  The arena of the machine itself has number zero. -/
abbrev ArenaKey := Nat

/-- The number of a set of properties.  The properties of the machine itself have number zero. -/
abbrev PropertiesKey := Nat

abbrev ResponseId := Nat

/-- One activation of a worker, or a root. -/
structure Context where
  id : ContextId
  parent : Option ContextId
  arena : ArenaKey
  properties : PropertiesKey
  activity : Option (Callable × Worker)
  error : Option ErrorValue
  inCaller : Bool
  locals : RegisterFile
  results : RegisterFile
  deriving Inhabited

namespace Context

def root (id : ContextId) (parent : Option ContextId) (arena : ArenaKey)
    (properties : PropertiesKey) : Context where
  id := id
  parent := parent
  arena := arena
  properties := properties
  activity := none
  error := none
  inCaller := true
  locals := .empty
  results := .empty

/-- Put an error into the error slot in place of any earlier one. -/
def raise (context : Context) (error : ErrorValue) : Context :=
  { context with error := some error }

def frame? (context : Context) : Option Frame :=
  context.activity.map fun (unit, worker) => ⟨unit.package, unit.name, worker.name⟩

def addFrame (context : Context) (error : ErrorValue) : ErrorValue :=
  match context.frame? with
  | some frame => error.pushFrame frame
  | none => error

end Context

/-- A context that is ready to run its worker, and the response it reports to. -/
structure Task where
  context : Context
  response : ResponseId
  deriving Inhabited

inductive WorkerExit where
  /-- By returning; the result registers hold the values. -/
  | returned
  /-- At its end, without returning values. -/
  | halted
  deriving DecidableEq, Repr, Inhabited

end WorkerMachine
