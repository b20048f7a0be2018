import WorkerMachine.Machine.Effect
/-!
# Stations and scheduling

A station is the place from which one thread works a machine: the machine's setup, the thread, and
the way in which tasks are run there.  The scheduler of a station decides what becomes of a task and
what happens while a caller waits for a response.
-/

namespace WorkerMachine

/-- The place from which one thread works a machine. -/
structure Station extends Setup where
  thread : ThreadId
  /-- How many queued tasks a parking caller runs at most. -/
  drainBound : Nat
  /-- Run a task to its end on this thread. -/
  runTask : Task → Effect ContextState

abbrev Interpreter := Station → Routine WorkerExit

/-- Carry out the body that is recorded for the worker of a context.  A context without a worker has
nothing to do, and a worker without a body fails. -/
def Interpreter.ofBodies {Body : Type} (bodies : Table BodyKey Body)
    (carryOut : Body → Interpreter) : Interpreter := fun station => do
  match (← get).activity with
  | none => return .halted
  | some (unit, worker) =>
    match bodies.get? (unit.bodyKey worker) with
    | none => throw (.fault (.noWorkerBody unit.qualifiedName worker.index))
    | some body => carryOut body station

def contributeTo (response : ResponseId) (worker : ContextId) (outcome : WorkerOutcome)
    (result : RegisterFile) : Effect Bool := do
  Effect.ofAccess (← Effect.atomically (Machine.contribute response worker outcome result))

namespace Task

/-- The fault that a task contributes when it is dropped without having run. -/
def droppedFault (task : Task) : Fault :=
  .schedule ("worker context " ++ toString task.context.id ++ " dropped before running")

/-- Drop a task that has not run.  It contributes a fault, so that its caller is not left waiting.
-/
def dispose (task : Task) : Work Unit := do
  let contribution := Machine.contribute task.response task.context.id (.faulted task.droppedFault)
    task.context.results
  Process.modify fun machine => (contribution machine).2
  task.context.release

end Task

def Machine.enqueue (task : Task) (machine : Machine) : Machine :=
  { machine with queue := machine.queue ++ [task] }

/-- Take a task off the queue, the one queued last if `newest` holds and else the one queued first.
-/
def Machine.dequeue (newest : Bool) (machine : Machine) : Option Task × Machine :=
  if newest then
    (machine.queue.getLast?, { machine with queue := machine.queue.dropLast })
  else (machine.queue.head?, { machine with queue := machine.queue.tail })

def Machine.countTaken (machine : Machine) : Machine :=
  { machine with taken := machine.taken + 1, active := machine.active + 1 }

def Machine.spawn (task : Task) (machine : Machine) : Machine :=
  { machine.countTaken with spawned := machine.spawned ++ [task] }

namespace Station

/-- Run a task that was handed to the scheduler, and write down how it ended. -/
def runScheduled (station : Station) (task : Task) : Effect Unit := do
  let state ← station.runTask task
  Effect.modify (Machine.write (.ran task.context.id state))

/-- Hand a task to the scheduler.  A thread whose name is refused is not started: the scheduler then
panics, having dropped the task that was to get the thread to itself, or keeping the task of a pool
for good. -/
def schedule (station : Station) (task : Task) : Effect Unit := do
  match station.policy with
  | .rehearsed order =>
    Effect.modify fun machine =>
      { machine.write (.scheduled task.context.id task.context.inCaller) with
        taken := machine.taken + 1 }
    match order with
    | .inline => station.runScheduled task
    | .fifo | .lifo => Effect.modify (Machine.enqueue task)
    | .drop => task.dispose
    | .reject =>
      task.dispose
      Effect.fail (.schedule "rejected")
  | .ownThreads _ _ spawnFailure =>
    match station.policy.threadRefusal? task.context.id, spawnFailure with
    | some refusal, _ =>
      Effect.modify fun machine => { machine with active := machine.active + 1 }
      task.dispose
      throw (.panic refusal)
    | none, some reason =>
      task.dispose
      Effect.fail (.schedule ("failed to spawn worker thread: " ++ reason))
    | none, none => Effect.modify (Machine.spawn task)
  | .threadPool _ _ _ =>
    match station.policy.threadRefusal? task.context.id with
    | some refusal =>
      Effect.modify Machine.countTaken
      throw (.panic refusal)
    | none => Effect.modify (Machine.spawn task)

def runInCaller (station : Station) (task : Task) : Effect ContextState := do
  let state ← station.runTask task
  match station.policy with
  | .rehearsed _ => Effect.modify (Machine.write (.ranInCaller task.context.id state))
  | .ownThreads _ _ _ | .threadPool _ _ _ => pure ()
  return state

/-- Run queued tasks until the queue is empty, also those that come in meanwhile.  Once the bound is
used up, the rest is left to others. -/
def drain (station : Station) (newest : Bool) : Nat → Effect Unit
  | 0 => Effect.waitUntil fun machine => machine.queue.isEmpty
  | bound + 1 => do
    match ← Effect.atomically (Machine.dequeue newest) with
    | none => return ()
    | some task =>
      station.runScheduled task
      drain station newest bound

def drainQueue (station : Station) : Effect Unit :=
  match station.policy with
  | .rehearsed order => station.drain (order = .lifo) station.drainBound
  | .ownThreads _ _ _ | .threadPool _ _ _ => pure ()

/-- Wait until nothing is outstanding in a response.  A rehearsing scheduler runs its queue first.
-/
def park (station : Station) (response : ResponseId) : Effect Unit := do
  match station.policy with
  | .rehearsed _ =>
    let outstanding ← Effect.read fun machine => (machine.response response).outstanding
    Effect.modify (Machine.write (.parked outstanding))
    station.drainQueue
  | .ownThreads _ _ _ | .threadPool _ _ _ => pure ()
  Effect.waitUntil fun machine => (machine.response response).outstanding = 0

end Station

end WorkerMachine
