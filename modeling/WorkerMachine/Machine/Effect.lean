import WorkerMachine.Machine.Basic
/-!
# Actions on a machine

Work is a process over the state of a machine.  An effect is work that can be interrupted, and a
routine is an effect that also changes a context; after an interruption the changes stay.
-/

namespace WorkerMachine

/-- A process over the state of a machine. -/
abbrev Work := Process Machine

/-- Work that can be interrupted. -/
abbrev Effect := ExceptT Interruption Work

/-- An effect on a context. -/
abbrev Routine := ExceptT Interruption (StateT Context Work)

namespace Effect

variable {Answer : Type}

def fail (fault : Fault) : Effect Answer :=
  throw (.fault fault)

/-- Go on with an answer, or fail with a fault. -/
def ofExcept : Except Fault Answer → Effect Answer
  | .ok answer => pure answer
  | .error fault => fail fault

/-- Go on with what was read from registers, or panic. -/
def ofAccess : Except Overrun Answer → Effect Answer
  | .ok answer => pure answer
  | .error overrun => throw overrun.interruption

def read (view : Machine → Answer) : Effect Answer :=
  ExceptT.lift (Process.read view)

/-- Change the machine. -/
def modify (update : Machine → Machine) : Effect Unit :=
  ExceptT.lift (Process.modify update)

/-- Change the machine and answer, in one step. -/
def atomically (operation : Machine → Answer × Machine) : Effect Answer :=
  ExceptT.lift (Process.atomically operation)

def waitUntil (ready : Machine → Bool) : Effect Unit :=
  ExceptT.lift (Process.waitUntil ready)

def pause (milliseconds : Nat) : Effect Unit :=
  ExceptT.lift (Process.pause milliseconds)

/-- Wait for good. -/
def stall : Effect Answer := do
  waitUntil fun _ => false
  throw .exhausted

/-- Run an effect and then some work, however the effect ends. -/
def followedBy (effect : Effect Answer) (cleanup : Work Unit) : Effect Answer :=
  ExceptT.mk do
    let outcome ← effect.run
    cleanup
    return outcome

def orElseRun (effect : Effect Answer) (cleanup : Work Unit) : Effect Answer :=
  ExceptT.mk do
    let outcome ← effect.run
    match outcome with
    | .ok answer => return .ok answer
    | .error interruption =>
      cleanup
      return .error interruption

/-- The outcome of an effect as far as the program can see it: an answer or a fault. -/
def attempt (effect : Effect Answer) : Effect (Except Fault Answer) :=
  ExceptT.mk do
    match ← effect.run with
    | .ok answer => return .ok (.ok answer)
    | .error (.fault fault) => return .ok (.error fault)
    | .error interruption => return .error interruption

end Effect

namespace Routine

variable {Answer : Type}

def ofEffect (effect : Effect Answer) : Routine Answer :=
  ExceptT.mk (StateT.lift effect.run)

instance : MonadLift Effect Routine := ⟨ofEffect⟩

/-- Run a routine on a context: its outcome, and the context as it was left. -/
def runOn (routine : Routine Answer) (context : Context) :
    Work (Except Interruption Answer × Context) :=
  routine.run.run context

/-- The outcome of a routine as far as the program can see it: an answer or a fault. -/
def attempt (routine : Routine Answer) : Routine (Except Fault Answer) :=
  ExceptT.mk do
    match ← routine.run with
    | .ok answer => return .ok (.ok answer)
    | .error (.fault fault) => return .ok (.error fault)
    | .error interruption => return .error interruption

end Routine

/-! ## Global memory -/

/-- Store a value in global memory.  A value of another bank leaves it as it is. -/
def storeGlobal (slot : Slot) (value : Value) : Effect Unit := do
  Effect.ofAccess (← Effect.atomically fun machine =>
    match machine.globals.storeOrKeep slot value with
    | .ok globals => (.ok (), { machine with globals := globals })
    | .error overrun => (.error overrun, machine))

/-! ## Contexts -/

def registerContext (arena : ArenaKey) (record : ContextRecord) : Effect ContextId :=
  Effect.atomically (Machine.inArena arena fun records => records.register record)

def moveContext (arena : ArenaKey) (id : ContextId) (next : ContextState) :
    Effect (Except Fault ContextState) :=
  Effect.atomically (Machine.inArena arena fun records => records.transition id next)

def Context.release (context : Context) : Work Unit :=
  Process.modify (Machine.alterArena context.arena fun records => records.release context.id)

def openRoot (arena : ArenaKey) (properties : PropertiesKey) : Effect Context := do
  let id ← registerContext arena ⟨none, .running, Arena.rootLabel⟩
  return .root id none arena properties

/-- Open a root below a context, which shares the context's arena and properties. -/
def Context.openChild (parent : Context) : Effect Context := do
  let id ← registerContext parent.arena ⟨some parent.id, .running, Arena.rootLabel⟩
  return .root id (some parent.id) parent.arena parent.properties

end WorkerMachine
