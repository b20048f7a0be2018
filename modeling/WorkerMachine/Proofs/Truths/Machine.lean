import WorkerMachine.Machine.Runner
import WorkerMachine.Proofs.Process.Staying
import WorkerMachine.Proofs.Truths.Files
/-!
# Zeros and ones on a machine

A machine holds register files in global memory, in what responses have staged, and in the contexts of
tasks.  Scheduling tasks and waiting for responses keeps zeros and ones in all of them, as long as the
tasks that are run do so.
-/

namespace WorkerMachine

structure Context.HasTruths (context : Context) : Prop where
  locals : context.locals.HasTruths
  results : context.results.HasTruths

/-- The registers that a worker has begun or ended with hold zeros and ones where booleans are. -/
def Happening.HasTruths : Happening → Prop
  | .started task => task.context.HasTruths
  | .ended task _ after => task.context.HasTruths ∧ after.HasTruths
  | .initCalled _ _ => True

/-- All register files of a machine hold zeros and ones where booleans are: global memory, what the
responses have staged, the registers of the tasks that wait in the queue or for a thread, and those
that workers have begun and ended with. -/
structure Machine.HasTruths (machine : Machine) : Prop where
  globals : machine.globals.HasTruths
  staged : ∀ response ∈ machine.responses, response.staged.HasTruths
  queued : ∀ task ∈ machine.queue, task.context.HasTruths
  spawned : ∀ task ∈ machine.spawned, task.context.HasTruths
  history : ∀ happening ∈ machine.history, happening.HasTruths

/-! ## Changes of the machine -/

namespace Machine.HasTruths

variable {machine later : Machine} {task : Task} {Answer : Type}

/-- A change of anything else. -/
theorem of_same (truths : machine.HasTruths) (globals : later.globals = machine.globals)
    (responses : later.responses = machine.responses) (queue : later.queue = machine.queue)
    (spawned : later.spawned = machine.spawned) (history : later.history = machine.history) :
    later.HasTruths where
  globals := globals ▸ truths.globals
  staged := responses ▸ truths.staged
  queued := queue ▸ truths.queued
  spawned := spawned ▸ truths.spawned
  history := history ▸ truths.history

theorem record (truths : machine.HasTruths) {happening : Happening}
    (isKnown : happening.HasTruths) : (machine.record happening).HasTruths where
  globals := truths.globals
  staged := truths.staged
  queued := truths.queued
  spawned := truths.spawned
  history := by
    intro other member
    rcases List.mem_cons.mp member with rfl | isOld
    · exact isKnown
    · exact truths.history other isOld

theorem callInit (truths : machine.HasTruths) (package : String) (mark : InitMark) :
    (machine.callInit package mark).HasTruths := by
  have known : (Happening.initCalled package mark.context).HasTruths := trivial
  have marked : Machine.HasTruths { machine with gate := machine.gate.mark package mark } :=
    truths.of_same rfl rfl rfl rfl rfl
  exact marked.record known

theorem inArena (truths : machine.HasTruths) (key : ArenaKey)
    (operation : Arena → Answer × Arena) : (machine.inArena key operation).2.HasTruths :=
  truths.of_same rfl rfl rfl rfl rfl

theorem response (truths : machine.HasTruths) (id : ResponseId) :
    (machine.response id).staged.HasTruths := by
  unfold Machine.response
  cases found : machine.responses[id]? with
  | none => exact RegisterFile.hasTruths_empty
  | some response => exact truths.staged response (Array.mem_of_getElem? found)

theorem openResponse (truths : machine.HasTruths) (returns : Layout) (waits : Bool)
    (expected : Nat) : (machine.openResponse returns waits expected).2.HasTruths where
  globals := truths.globals
  staged := by
    intro response member
    rcases Array.mem_push.mp member with isOld | rfl
    · exact truths.staged response isOld
    · exact RegisterFile.hasTruths_ofSizes _
  queued := truths.queued
  spawned := truths.spawned
  history := truths.history

theorem contribute (truths : machine.HasTruths) {result : RegisterFile}
    (resultTruths : result.HasTruths) (id : ResponseId) (worker : ContextId)
    (outcome : WorkerOutcome) : (machine.contribute id worker outcome result).2.HasTruths where
  globals := truths.globals
  staged := by
    intro response member
    rcases Array.mem_or_eq_of_mem_setIfInBounds member with isOld | rfl
    · exact truths.staged response isOld
    · exact Response.contribute_hasTruths (truths.response id) resultTruths worker outcome
  queued := truths.queued
  spawned := truths.spawned
  history := truths.history

theorem enqueue (truths : machine.HasTruths) (taskTruths : task.context.HasTruths) :
    (machine.enqueue task).HasTruths := by
  refine { truths with queued := ?_ }
  intro other member
  rcases List.mem_append.mp member with isOld | isNew
  · exact truths.queued other isOld
  · rw [List.mem_singleton.mp isNew]
    exact taskTruths

theorem dequeue (truths : machine.HasTruths) (newest : Bool) :
    (machine.dequeue newest).2.HasTruths ∧
      ∀ task, (machine.dequeue newest).1 = some task → task.context.HasTruths := by
  unfold Machine.dequeue
  split
  · refine ⟨{ truths with queued := fun task member => ?_ }, fun task isLast => ?_⟩
    · exact truths.queued task ((List.dropLast_sublist _).subset member)
    · exact truths.queued task (List.mem_of_getLast? isLast)
  · refine ⟨{ truths with queued := fun task member => ?_ }, fun task isFirst => ?_⟩
    · exact truths.queued task (List.mem_of_mem_tail member)
    · exact truths.queued task (List.mem_of_head? isFirst)

theorem spawn (truths : machine.HasTruths) (taskTruths : task.context.HasTruths) :
    (machine.spawn task).HasTruths := by
  refine ⟨truths.globals, truths.staged, truths.queued, ?_, truths.history⟩
  intro other member
  rcases List.mem_append.mp member with isOld | isNew
  · exact truths.spawned other isOld
  · rw [List.mem_singleton.mp isNew]
    exact taskTruths

theorem startTask (truths : machine.HasTruths) (taskTruths : task.context.HasTruths) :
    (machine.startTask task).2.HasTruths := by
  have moved := truths.inArena task.context.arena
    fun records => records.transition task.context.id .running
  unfold Machine.startTask
  split
  · next isMoved =>
    rw [isMoved] at moved
    exact moved.record taskTruths
  · next isRefused =>
    rw [isRefused] at moved
    exact moved

theorem endTask (truths : machine.HasTruths) (taskTruths : task.context.HasTruths)
    {after : Context} (afterTruths : after.HasTruths)
    (outcome : Except Interruption WorkerExit) :
    (machine.endTask task outcome after).2.HasTruths := by
  have recorded : (machine.record (.ended task outcome after)).HasTruths :=
    truths.record ⟨taskTruths, afterTruths⟩
  exact recorded.contribute afterTruths.results _ _ _

theorem resolveConstants (truths : machine.HasTruths) (values : List (Nat × Constant)) :
    (machine.resolveConstants values).HasTruths := by
  unfold Machine.resolveConstants
  induction values generalizing machine with
  | nil => exact truths
  | cons value rest inductionHypothesis =>
      have resolved : (machine.resolveConstant value.1 value.2).HasTruths := by
        unfold Machine.resolveConstant
        split
        · exact truths
        · exact truths.of_same rfl rfl rfl rfl rfl
      exact inductionHypothesis resolved

end Machine.HasTruths

/-! ## Single steps -/

section Steps

variable {Answer : Type} {goal : Answer → Prop}

theorem Process.truly_atomically {operation : Machine → Answer × Machine}
    (kept : ∀ machine : Machine, machine.HasTruths →
      (operation machine).2.HasTruths ∧ goal (operation machine).1) :
    (atomically operation).Keeps Machine.HasTruths goal :=
  stays_atomically fun machine _ truths _ => ⟨trivial, kept machine truths⟩

theorem Process.truly_modify {update : Machine → Machine}
    (kept : ∀ machine : Machine, machine.HasTruths → (update machine).HasTruths) :
    (modify update).Keeps Machine.HasTruths fun _ => True :=
  stays_modify (fun machine _ truths _ => ⟨trivial, kept machine truths⟩) trivial

theorem Effect.truly_atomically {operation : Machine → Answer × Machine}
    (kept : ∀ machine : Machine, machine.HasTruths →
      (operation machine).2.HasTruths ∧ goal (operation machine).1) :
    (atomically operation).Keeps Machine.HasTruths goal :=
  stays_work (Process.truly_atomically kept)

theorem Effect.truly_modify {update : Machine → Machine}
    (kept : ∀ machine : Machine, machine.HasTruths → (update machine).HasTruths) :
    (modify update).Keeps Machine.HasTruths fun _ => True :=
  stays_work (Process.truly_modify kept)

theorem Effect.truly_read (view : Machine → Answer) :
    (read view).Keeps Machine.HasTruths fun _ => True :=
  stays_read fun _ _ _ _ => trivial

theorem Effect.truly_waitUntil (ready : Machine → Bool) :
    (waitUntil ready).Keeps Machine.HasTruths fun _ => True :=
  follows_waitUntil (fun _ _ _ _ _ => trivial) fun _ _ truths _ _ => ⟨(), truths, rfl, trivial⟩

theorem Context.release_truly (context : Context) :
    context.release.Keeps Machine.HasTruths fun _ => True :=
  Process.truly_modify fun _ truths => truths.of_same rfl rfl rfl rfl rfl

theorem registerContext_truly (arena : ArenaKey) (record : ContextRecord) :
    (registerContext arena record).Keeps Machine.HasTruths fun _ => True :=
  Effect.truly_atomically fun _ truths => ⟨truths.inArena arena _, trivial⟩

theorem tally_truly (count : Tallies → Tallies) :
    (tally count).Keeps Machine.HasTruths fun _ => True :=
  Effect.truly_modify fun _ truths => truths.of_same rfl rfl rfl rfl rfl

theorem alterGate_truly (change : Gate → Gate) :
    (alterGate change).Keeps Machine.HasTruths fun _ => True :=
  Effect.truly_modify fun _ truths => truths.of_same rfl rfl rfl rfl rfl

theorem resumeParent_truly (parent : ContextId) :
    (resumeParent parent).Keeps Machine.HasTruths fun _ => True :=
  Process.truly_modify fun _ truths => truths.of_same rfl rfl rfl rfl rfl

theorem Context.root_hasTruths (id : ContextId) (parent : Option ContextId) (arena : ArenaKey)
    (properties : PropertiesKey) : (root id parent arena properties).HasTruths :=
  ⟨RegisterFile.hasTruths_empty, RegisterFile.hasTruths_empty⟩

theorem contributeTo_truly (response : ResponseId) (worker : ContextId) (outcome : WorkerOutcome)
    {result : RegisterFile} (truths : result.HasTruths) :
    (contributeTo response worker outcome result).Keeps Machine.HasTruths fun _ => True := by
  have contributed : (Effect.atomically
      (Machine.contribute response worker outcome result)).Keeps Machine.HasTruths
        fun _ => True :=
    Effect.truly_atomically fun _ held => ⟨held.contribute truths response worker outcome, trivial⟩
  exact Effect.Stays.bind contributed fun _ _ => Effect.stays_ofAccess fun _ _ => trivial

theorem Task.dispose_truly {task : Task} (truths : task.context.HasTruths) :
    task.dispose.Keeps Machine.HasTruths fun _ => True := by
  have contributed : (Process.modify fun machine : Machine => (machine.contribute task.response
      task.context.id (.faulted task.droppedFault) task.context.results).2).Keeps Machine.HasTruths
        fun _ => True :=
    Process.truly_modify fun _ held => held.contribute truths.results _ _ _
  exact Process.Stays.bind contributed fun _ _ => task.context.release_truly

end Steps

/-! ## Scheduling and waiting -/

/-- Every task whose registers hold zeros and ones where booleans are keeps it so all over the
machine, if it is run on a station. -/
def Station.RunsTruly (station : Station) : Prop :=
  ∀ task : Task, task.context.HasTruths →
    (station.runTask task).Keeps Machine.HasTruths fun _ => True

namespace Station

variable {station : Station}

section Tasks

variable (tasks : station.RunsTruly) {task : Task}

include tasks

theorem runScheduled_truly (truths : task.context.HasTruths) :
    (station.runScheduled task).Keeps Machine.HasTruths fun _ => True :=
  Effect.Stays.bind (tasks task truths) fun _ _ =>
    Effect.truly_modify fun _ held => held.of_same rfl rfl rfl rfl rfl

theorem schedule_truly (truths : task.context.HasTruths) :
    (station.schedule task).Keeps Machine.HasTruths fun _ => True := by
  have disposed : (liftM task.dispose : Effect Unit).Keeps Machine.HasTruths fun _ => True :=
    Effect.stays_work (Task.dispose_truly truths)
  unfold schedule
  split
  · have taken : (Effect.modify fun machine : Machine =>
        { machine.write (.scheduled task.context.id task.context.inCaller) with
          taken := machine.taken + 1 }).Keeps Machine.HasTruths fun _ => True :=
      Effect.truly_modify fun _ held => held.of_same rfl rfl rfl rfl rfl
    refine Effect.Stays.bind taken fun _ _ => ?_
    split
    · exact runScheduled_truly tasks truths
    · exact Effect.truly_modify fun _ held => held.enqueue truths
    · exact Effect.truly_modify fun _ held => held.enqueue truths
    · exact disposed
    · exact Effect.Stays.bind disposed fun _ _ => Effect.stays_fail _
  · split
    · have counted : (Effect.modify fun machine : Machine =>
          { machine with active := machine.active + 1 }).Keeps Machine.HasTruths fun _ => True :=
        Effect.truly_modify fun _ held => held.of_same rfl rfl rfl rfl rfl
      refine Effect.Stays.bind counted fun _ _ => ?_
      exact Effect.Stays.bind disposed fun _ _ => Effect.stays_throw _
    · exact Effect.Stays.bind disposed fun _ _ => Effect.stays_fail _
    · exact Effect.truly_modify fun _ held => held.spawn truths
  · split
    · have counted : (Effect.modify Machine.countTaken).Keeps Machine.HasTruths fun _ => True :=
        Effect.truly_modify fun _ held => held.of_same rfl rfl rfl rfl rfl
      exact Effect.Stays.bind counted fun _ _ => Effect.stays_throw _
    · exact Effect.truly_modify fun _ held => held.spawn truths

theorem runInCaller_truly (truths : task.context.HasTruths) :
    (station.runInCaller task).Keeps Machine.HasTruths fun _ => True := by
  unfold runInCaller
  refine Effect.Stays.bind (tasks task truths) fun _ _ => ?_
  split
  · refine Effect.Stays.bind (Effect.truly_modify fun _ held => ?_) fun _ _ =>
      Effect.stays_pure trivial
    exact held.of_same rfl rfl rfl rfl rfl
  · exact Effect.stays_pure trivial
  · exact Effect.stays_pure trivial

theorem drain_truly (newest : Bool) (bound : Nat) :
    (station.drain newest bound).Keeps Machine.HasTruths fun _ => True := by
  induction bound with
  | zero =>
      exact Effect.truly_waitUntil _
  | succ bound inductionHypothesis =>
      have taken : (Effect.atomically (Machine.dequeue newest)).Keeps Machine.HasTruths
          fun next => ∀ task, next = some task → task.context.HasTruths :=
        Effect.truly_atomically fun _ held => held.dequeue newest
      unfold drain
      refine Effect.Stays.bind taken fun next truths => ?_
      cases next with
      | none =>
          exact Effect.stays_pure trivial
      | some task =>
          exact Effect.Stays.bind (runScheduled_truly tasks (truths task rfl)) fun _ _ =>
            inductionHypothesis

theorem drainQueue_truly : station.drainQueue.Keeps Machine.HasTruths fun _ => True := by
  unfold drainQueue
  split
  · exact drain_truly tasks _ _
  · exact Effect.stays_pure trivial
  · exact Effect.stays_pure trivial

theorem park_truly (response : ResponseId) :
    (station.park response).Keeps Machine.HasTruths fun _ => True := by
  unfold park
  split
  · refine Effect.Stays.bind (Effect.truly_read _) fun outstanding _ => ?_
    have written : (Effect.modify (Machine.write (.parked outstanding))).Keeps Machine.HasTruths
        fun _ => True :=
      Effect.truly_modify fun _ held => held.of_same rfl rfl rfl rfl rfl
    refine Effect.Stays.bind written fun _ _ => ?_
    exact Effect.Stays.bind (drainQueue_truly tasks) fun _ _ => Effect.truly_waitUntil _
  · exact Effect.truly_waitUntil _
  · exact Effect.truly_waitUntil _

end Tasks

end Station

end WorkerMachine
