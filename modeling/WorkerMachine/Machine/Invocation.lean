import WorkerMachine.Machine.Station
/-!
# Invocations

Invoking a unit dispatches its workers: all but the first are handed to the scheduler, and the first
one is kept for the path of the caller.  Joining the invocation marks the parent as waiting, runs
the first worker, waits for the response and copies the results.  An invocation that is given up
lets its parent run again and drops the worker that it still keeps.
-/

namespace WorkerMachine

/-- An invocation whose workers have been dispatched and that has not been joined yet. -/
structure Invocation where
  unit : Callable
  parent : ContextId
  response : ResponseId
  /-- The first worker, as long as it has not run. -/
  callerTask : Option Task
  deriving Inhabited

/-- Let a waiting parent run again. -/
def resumeParent (parent : ContextId) : Work Unit :=
  Process.modify (Machine.alterArena Machine.ownArena fun records => records.resume parent)

def Invocation.abandon (invocation : Invocation) : Work Unit := do
  resumeParent invocation.parent
  match invocation.callerTask with
  | some task => task.dispose
  | none => pure ()

def Tallies.addContext (tallies : Tallies) : Tallies :=
  { tallies with contexts := tallies.contexts + 1 }

def Tallies.addScheduled (tallies : Tallies) : Tallies :=
  { tallies with scheduled := tallies.scheduled + 1 }

def Tallies.addInCaller (tallies : Tallies) : Tallies :=
  { tallies with inCaller := tallies.inCaller + 1 }

def tally (count : Tallies → Tallies) : Effect Unit :=
  Effect.modify fun machine => { machine with tallies := count machine.tallies }

def prepareTask (unit : Callable) (worker : Worker) (parent : Context) (source : RegisterFile)
    (arguments : List Nat) (response : ResponseId) (inCaller : Bool) : Effect Task := do
  let locals ← Effect.ofAccess (Marshalling.seed worker.locals unit.params source arguments)
  let label := unit.qualifiedName ++ "(" ++ worker.name ++ ")"
  let id ← registerContext parent.arena ⟨some parent.id, .created, label⟩
  let context : Context :=
    { id := id
      parent := some parent.id
      arena := parent.arena
      properties := parent.properties
      activity := some (unit, worker)
      error := none
      inCaller := inCaller
      locals := locals
      results := .ofSizes unit.returns.sizes }
  tally Tallies.addContext
  Effect.orElseRun (do
      let _ ← Effect.ofExcept (← moveContext context.arena context.id .runnable)
      return ⟨context, response⟩)
    context.release

namespace Station

def scheduleWorkers (station : Station) (unit : Callable) (parent : Context) (source : RegisterFile)
    (arguments : List Nat) (response : ResponseId) : List Worker → Effect Unit
  | [] => pure ()
  | worker :: rest => do
    let task ← prepareTask unit worker parent source arguments response false
    tally Tallies.addScheduled
    station.schedule task
    scheduleWorkers station unit parent source arguments response rest

/-- Dispatch the workers of a unit.  The arguments are the slots of `source` that the parameters are
read from.  With `waits` the parent is marked as waiting before any worker exists. -/
def dispatch (station : Station) (unit : Callable) (parent : Context) (source : RegisterFile)
    (arguments : List Nat) (waits : Bool) : Effect Invocation := do
  Effect.ofExcept (unit.checkArity arguments.length)
  let response ← Effect.atomically
    (Machine.openResponse unit.returns waits unit.workers.length)
  if waits then
    Effect.ofExcept (← Effect.atomically
      (Machine.inArena parent.arena fun records => records.beginWait parent.id))
  Effect.orElseRun (do
      station.scheduleWorkers unit parent source arguments response unit.scheduledWorkers
      let task ← prepareTask unit unit.callerWorker parent source arguments response true
      return ⟨unit, parent.id, response, some task⟩)
    (resumeParent parent.id)

/-- Run the first worker of an invocation, if it has not run yet. -/
def runFirst (station : Station) (invocation : Invocation) : Effect (Option ContextState) := do
  match invocation.callerTask with
  | none => return none
  | some task =>
    tally Tallies.addInCaller
    return some (← station.runInCaller task)

/-- Bring the response of an invocation to its end and tell its outcome. -/
def settle (station : Station) (invocation : Invocation) : Effect ResponseOutcome := do
  let _ ← station.runFirst invocation
  station.park invocation.response
  resumeParent invocation.parent
  Effect.read fun machine => (machine.response invocation.response).outcome

/-- Copy the results of an invocation into a file, or fail with what its workers failed with. -/
def deliver (invocation : Invocation) (outcome : ResponseOutcome) (target : RegisterFile)
    (indices : List Nat) : Work (Except Interruption Unit × RegisterFile) := do
  match outcome with
  | .values =>
    let (delivered, copied) ← Process.read fun machine =>
      (machine.response invocation.response).deliverInto target indices
    match copied with
    | .ok () => return (.ok (), delivered)
    | .error overrun => return (.error overrun.interruption, delivered)
  | .error error => return (.error (.fault (.propagated error)), target)
  | .fault fault => return (.error (.fault fault), target)

/-- Join an invocation: wait for its workers and copy the results into `target` at `indices`.  What
is returned as the target holds everything that was copied, also when copying broke off. -/
def join (station : Station) (invocation : Invocation) (target : RegisterFile)
    (indices : List Nat) : Work (Except Interruption Unit × RegisterFile) := do
  let suspended ← Process.atomically
    (Machine.inArena Machine.ownArena fun records => records.suspend invocation.parent)
  match suspended with
  | .error fault =>
    invocation.abandon
    return (.error (.fault fault), target)
  | .ok () =>
    let answer ← match ← (station.settle invocation).run with
      | .ok outcome => deliver invocation outcome target indices
      | .error interruption => pure (.error interruption, target)
    Invocation.abandon { invocation with callerTask := none }
    return answer

/-- Call a unit with slots of the context's local registers as arguments and as targets of the
results.  A raised error is also left in the context's error slot. -/
def callRegisters (station : Station) (unit : Callable) (arguments returns : List Nat) :
    Routine Unit := do
  let context ← get
  let invocation ← station.dispatch unit context context.locals arguments true
  let (outcome, locals) ← (station.join invocation context.locals returns : Work _)
  let delivered := { context with locals := locals }
  match outcome with
  | .ok () => set delivered
  | .error (.fault (.propagated error)) =>
    set (delivered.raise error)
    throw (.fault (.propagated error))
  | .error interruption =>
    set delivered
    throw interruption

/-- Call a unit without arguments and results. -/
def callUnit (station : Station) (unit : Callable) : Routine Unit :=
  station.callRegisters unit [] []

def callValues (station : Station) (unit : Callable) (parent : Context) (arguments : List Value) :
    Effect (List Value) := do
  Effect.ofExcept (unit.checkArity arguments.length)
  let source ← ExceptT.mk (pure (Marshalling.lower unit.params arguments))
  let target := RegisterFile.ofSizes unit.returns.sizes
  let invocation ← station.dispatch unit parent source unit.params.indices true
  let (outcome, results) ← (station.join invocation target unit.returns.indices : Work _)
  ExceptT.mk (pure outcome)
  Effect.ofAccess (Marshalling.raise unit.returns results)

end Station

end WorkerMachine
