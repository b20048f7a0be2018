import WorkerMachine.Machine.Initialization
/-!
# Running tasks

A task moves its context through its life: it runs, its body is carried out, its end is judged, and
its contribution goes to the response.  A body may run further tasks, so how deep they nest is
bounded.
-/

namespace WorkerMachine

/-- The name under which a panic of a context without a worker is reported. -/
def Context.unitName (context : Context) : String :=
  match context.activity with
  | some (unit, _) => unit.name
  | none => Arena.rootLabel

/-- The worker under which a panic is reported. -/
def Context.workerName (context : Context) : String :=
  match context.activity with
  | some (_, worker) => worker.name
  | none => "?"

def Context.panicFault (context : Context) (payload : PanicPayload) : Fault :=
  .workerPanicked context.unitName context.workerName payload.message

/-- What the end of a body means.  A body that ends in order but has left an error raises it, a body
that hands on an error raises it, and every other failure is a fault.  A body that gives up for no
reason is taken for one that panicked. -/
def judge (context : Context) : Except Interruption WorkerExit → WorkerOutcome
  | .ok exit =>
    match context.error with
    | some error => .raised (context.addFrame error)
    | none =>
      match exit with
      | .returned => .returned
      | .halted => .finished
  | .error (.fault (.propagated error)) => .raised (context.addFrame error)
  | .error (.fault fault) => .faulted fault
  | .error (.panic payload) => .faulted (context.panicFault payload)
  | .error .exhausted => .faulted (context.panicFault .other)

def WorkerOutcome.lastState : WorkerOutcome → ContextState
  | returned | finished => .completed
  | raised _ | faulted _ => .failed

def Machine.startTask (task : Task) (machine : Machine) : Except Fault ContextState × Machine :=
  match Machine.inArena task.context.arena (fun records => records.transition task.context.id .running)
    machine with
  | (.ok state, moved) => (.ok state, moved.record (.started task))
  | (.error fault, moved) => (.error fault, moved)

/-- Hand in the contribution of a task whose body has ended. -/
def Machine.endTask (task : Task) (outcome : Except Interruption WorkerExit) (after : Context)
    (machine : Machine) : Except Overrun Bool × Machine :=
  (machine.record (.ended task outcome after)).contribute task.response after.id
    (judge after outcome) after.results

def Station.carryOut (station : Station) (interpreter : Interpreter) (task : Task) :
    Effect ContextState :=
  Effect.followedBy (do
      match ← Effect.atomically (Machine.startTask task) with
      | .error fault =>
        let _ ← contributeTo task.response task.context.id (.faulted fault) task.context.results
        return .failed
      | .ok _ =>
        let (outcome, after) ← ((interpreter station).runOn task.context : Work _)
        let last := (judge after outcome).lastState
        Effect.modify (Machine.alterArena after.arena fun records => records.finish after.id last)
        let _ ← Effect.ofAccess (← Effect.atomically (Machine.endTask task outcome after))
        return last)
    task.context.release

/-- The station of a thread.  Tasks may nest as deep as `depth`; one that would nest deeper is never
begun. -/
def Setup.station (setup : Setup) (interpreter : Interpreter) (thread : ThreadId) : Nat → Station
  | 0 =>
    { toSetup := setup
      thread := thread
      drainBound := 0
      runTask := fun _ => Effect.stall }
  | depth + 1 =>
    { toSetup := setup
      thread := thread
      drainBound := depth
      runTask := fun task => (setup.station interpreter thread depth).carryOut interpreter task }

/-- Count the task of a thread that ends as finished.  A panic unwinds the thread before it comes to
this, so that the task stays active for good. -/
def Machine.countEnded (panicked : Bool) (machine : Machine) : Machine :=
  { machine with
    active := if panicked then machine.active else machine.active - 1
    lost := if panicked then machine.lost + 1 else machine.lost }

def Setup.threadOf (setup : Setup) (interpreter : Interpreter) (depth : Nat) (thread : ThreadId)
    (task : Task) : Work Unit := do
  let station := setup.station interpreter thread depth
  let outcome ← (station.runTask task).run
  Process.modify (Machine.countEnded !outcome.isOk)

end WorkerMachine
