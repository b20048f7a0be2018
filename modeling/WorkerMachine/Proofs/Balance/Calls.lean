import WorkerMachine.Proofs.Balance.Tasks
import WorkerMachine.Proofs.Failing.Hosts
/-!
# Calls that are accounted for

A thread that calls a unit from a running context has in the end in hand what it had in the beginning, and
has not tilted the scales: a context has been made for every worker, all but one of them have been
scheduled, and the last one has run on the path of the caller.
-/

namespace WorkerMachine

open Balance

variable {program : Program} {base : Machine} {thread : ThreadId} {token : Hand} {task : Task}
  {station : Station} {unit : Callable} {parent : Context} {source : RegisterFile}
  {arguments : List Nat} {response : ResponseId}

theorem Callable.Sound.seedsAll_lowered (sound : unit.Sound) {values : List Value}
    (lowered : Marshalling.lower unit.params values = .ok source) :
    unit.SeedsAll source unit.params.indices := by
  intro worker member
  obtain ⟨locals, seeded, _⟩ := Marshalling.exists_seed sound.params (sound.roomy worker member)
    (Marshalling.sizes_lower lowered)
  exact ⟨locals, seeded⟩

/-- A worker that was scheduled begins without further ado. -/
theorem Task.tilt_started (scheduled : task.context.inCaller = false) :
    Happening.tilt (.started task) = 0 := by
  have undispatched : Happening.dispatched? (.started task) = none := by
    simp [Happening.dispatched?, scheduled]
  unfold Happening.tilt
  rw [undispatched]

namespace Station

def BalancesTasks (program : Program) (base : Machine) (station : Station) : Prop :=
  ∀ task token, token.held task.context.id = some ⟨.runnable, some task⟩ →
    (station.runTask task).Follows (.balancing program base) station.thread token
      (fun _ last => last = (token.hold task.context.id none).add (Happening.tilt (.started task)))
      fun _ _ => False

section Scheduling

variable (tasks : station.BalancesTasks program base)

include tasks

theorem runScheduled_balances (isHeld : token.held task.context.id = some ⟨.runnable, some task⟩)
    (scheduled : task.context.inCaller = false) :
    (station.runScheduled task).Follows (.balancing program base) station.thread token
      (fun _ last => last = token.hold task.context.id none) fun _ _ => False := by
  refine (tasks task token isHeld).bind ?_
  rintro state _ rfl
  rw [Task.tilt_started scheduled, Hand.add_zero]
  exact Effect.immaterial_modify fun machine => immaterial_write machine _

/-- A scheduler that turns nothing away takes a task over, or runs or drops it. -/
theorem schedule_balances (sound : program.Sound) (named : station.policy.NamesThreads)
    (accepts : ¬station.policy.TurnsAway)
    (isHeld : token.held task.context.id = some ⟨.runnable, some task⟩)
    (scheduled : task.context.inCaller = false) :
    (station.schedule task).Follows (.balancing program base) station.thread token
      (fun _ last => last = token.hold task.context.id none) fun _ _ => False := by
  have queued : ∀ update : Machine → Machine, (∀ machine, Queues machine (update machine) ∧
        (update machine).waitingTasks.Perm (task :: machine.waitingTasks)) →
      (Effect.modify update).Follows (.balancing program base) station.thread token
        (fun _ last => last = token.hold task.context.id none) fun _ _ => False :=
    fun update queues => Effect.follows_accounting_modify fun machine _ =>
      (queues machine).1.offers isHeld scheduled (queues machine).2
  have spawned := queued (Machine.spawn task) fun machine =>
    ⟨⟨rfl, rfl, rfl, rfl, rfl⟩, machine.waitingTasks_spawn task⟩
  have enqueued := queued (Machine.enqueue task) fun machine =>
    ⟨⟨rfl, rfl, rfl, rfl, rfl⟩, machine.waitingTasks_enqueue task⟩
  unfold schedule
  split
  · next order isPolicy =>
    refine Effect.Follows.bind (Effect.immaterial_modify fun machine =>
      ⟨⟨rfl, Nat.le_refl _, rfl, rfl, rfl⟩, rfl, rfl⟩) ?_
    rintro _ _ rfl
    cases order with
    | inline => exact runScheduled_balances tasks isHeld scheduled
    | fifo => exact enqueued
    | lifo => exact enqueued
    | drop => exact Effect.follows_work (dispose_balances sound isHeld)
    | reject => exact absurd (by rw [isPolicy]; rfl) accepts
  · next threadName stackSize spawnFailure isPolicy =>
    rw [named]
    cases spawnFailure with
    | none => exact spawned
    | some reason => exact absurd (by rw [isPolicy]; rfl) accepts
  · rw [named]
    exact spawned

/-- Queued tasks are run whatever the thread has in hand. -/
theorem drain_balances (newest : Bool) (bound : Nat) :
    (station.drain newest bound).Follows (.balancing program base) station.thread token
      (fun _ last => last = token) fun _ _ => False := by
  induction bound with
  | zero => exact Effect.waitUntil_stays_balancing _
  | succ bound inductionHypothesis =>
    have taken : (Effect.atomically (Machine.dequeue newest)).Follows (.balancing program base)
        station.thread token
        (fun answer last => (answer = none ∧ last = token) ∨ ∃ task, answer = some task ∧
          task.context.inCaller = false ∧ token.held task.context.id = none ∧
            last = token.hold task.context.id (some ⟨.runnable, some task⟩))
        fun _ _ => False := by
      refine Effect.follows_accounting fun machine known => ?_
      have queues : Queues machine (machine.dequeue newest).2 := by
        unfold Machine.dequeue
        cases newest <;> exact ⟨rfl, rfl, rfl, rfl, rfl⟩
      rcases machine.waitingTasks_dequeue newest with ⟨isNone, sameTasks⟩ | ⟨task, isSome, perm⟩
      · exact ⟨token, (queues.immaterial sameTasks).exchanges, .inl ⟨isNone, rfl⟩⟩
      · have waits := perm.symm.subset List.mem_cons_self
        exact ⟨_, queues.takes perm, .inr ⟨task, isSome, known.scheduled task waits,
          known.free waits, rfl⟩⟩
    unfold drain
    refine Effect.Follows.bind taken ?_
    rintro _ _ (⟨rfl, rfl⟩ | ⟨task, rfl, scheduled, isFree, rfl⟩)
    · rfl
    · refine Effect.Follows.bind
        (runScheduled_balances tasks (Hand.held_hold_self ..) scheduled) ?_
      rintro _ _ rfl
      rw [Hand.hold_hold, Hand.hold_eq_self isFree]
      exact inductionHypothesis

theorem drainQueue_balances :
    station.drainQueue.Follows (.balancing program base) station.thread token
      (fun _ last => last = token) fun _ _ => False := by
  unfold drainQueue
  split
  · exact drain_balances tasks _ _
  · rfl
  · rfl

/-- A caller that waits may run queued tasks meanwhile. -/
theorem park_balances (response : ResponseId) :
    (station.park response).Follows (.balancing program base) station.thread token
      (fun _ last => last = token) fun _ _ => False := by
  unfold park
  split
  · have looked : (Effect.read fun machine => (machine.response response).outstanding).Follows
        (.balancing program base) station.thread token (fun _ last => last = token)
        fun _ _ => False :=
      Effect.follows_read fun _ _ _ _ => rfl
    refine Effect.Follows.bind looked ?_
    rintro outstanding _ rfl
    refine Effect.Follows.bind
      (Effect.immaterial_modify fun machine => immaterial_write machine _) ?_
    rintro _ _ rfl
    refine Effect.Follows.bind (drainQueue_balances tasks) ?_
    rintro _ _ rfl
    exact Effect.waitUntil_stays_balancing _
  · exact Effect.waitUntil_stays_balancing _
  · exact Effect.waitUntil_stays_balancing _

theorem runFirst_balances {invocation : Invocation} (isTask : invocation.callerTask = some task)
    (isHeld : token.held task.context.id = some ⟨.runnable, some task⟩) :
    (station.runFirst invocation).Follows (.balancing program base) station.thread token
      (fun _ last => last = (token.hold task.context.id none).add
        (Tallies.tilt { inCaller := 1 } + Happening.tilt (.started task))) fun _ _ => False := by
  unfold runFirst
  rw [isTask]
  refine Effect.Follows.bind (tally_balances { inCaller := 1 } fun _ => rfl) ?_
  rintro _ _ rfl
  unfold runInCaller
  refine Effect.Follows.bind (Effect.Follows.bind (tasks task _ isHeld) ?_) fun _ _ => id
  rintro state _ rfl
  rw [← Hand.add_hold, Hand.add_add]
  split
  · refine Effect.Follows.bind
      (Effect.immaterial_modify fun machine => immaterial_write machine _) ?_
    rintro _ _ rfl
    rfl
  · rfl
  · rfl

end Scheduling

/-! ## Dispatching -/

section Calling

variable (tasks : station.BalancesTasks program base) (sound : program.Sound)
  (named : station.policy.NamesThreads) (accepts : ¬station.policy.TurnsAway)
  (isOwn : parent.arena = Machine.ownArena) (declared : program.Declares unit)

include tasks sound named accepts isOwn declared

/-- Every worker that is handed to the scheduler is counted as a context and as scheduled. -/
theorem scheduleWorkers_balances {workers : List Worker}
    (members : ∀ worker ∈ workers, worker ∈ unit.workers) (seeds : unit.SeedsAll source arguments)
    (called : (response, unit.returns) ∈ token.calls) :
    (station.scheduleWorkers unit parent source arguments response workers).Follows
      (.balancing program base) station.thread token
      (fun _ last => last = token.add
        (Tallies.tilt { contexts := workers.length, scheduled := workers.length }))
      fun _ _ => False := by
  induction workers generalizing token with
  | nil =>
    have noChange : Tallies.tilt { contexts := 0, scheduled := 0 } = 0 := tilt_zero
    refine Effect.follows_pure ?_
    rw [List.length_nil, noChange, Hand.add_zero]
  | cons worker workers inductionHypothesis =>
    obtain ⟨locals, seeded⟩ := seeds worker (members worker List.mem_cons_self)
    unfold scheduleWorkers
    refine Effect.Follows.bind (prepareTask_balances isOwn declared
      (members worker List.mem_cons_self) seeded called false) ?_
    rintro _ _ ⟨⟨id, rfl⟩, isFree, rfl⟩
    refine Effect.Follows.bind (tally_balances { scheduled := 1 } fun _ => rfl) ?_
    rintro _ _ rfl
    refine Effect.Follows.bind (schedule_balances tasks sound named accepts
      (by exact Hand.held_hold_self ..) rfl) ?_
    rintro _ _ rfl
    rw [Hand.add_add, Hand.add_hold, Hand.hold_hold, Hand.hold_eq_self isFree]
    refine (inductionHypothesis (fun other member => members other (List.mem_cons_of_mem _ member))
      (by exact called)).weaken ?_ fun _ _ never => never
    rintro _ _ rfl
    rw [Hand.add_add]
    congr 1
    unfold Tallies.tilt
    rw [tilt_add, tilt_add, List.length_cons]
    push_cast
    congr 1 <;> omega

end Calling

end Station

/-! ## Opening and closing a call -/

theorem openResponse_balances {waits : Bool} {expected : Nat} {returns : Layout}
    {upset : Interruption → Hand → Prop} :
    (Effect.atomically (Machine.openResponse returns waits expected)).Follows
      (.balancing program base) thread token
      (fun response last => last = (token.know (response, returns)).add
        (Tallies.tilt { responses := 1 })) upset := by
  refine Effect.follows_accounting fun machine _ => ⟨_, ?_, rfl⟩
  have keeps : machine.KeepsCollecting { machine with
      responses := machine.responses.push (Response.opening returns waits expected) } := by
    rintro id layout ⟨response, found, collects⟩
    refine ⟨response, ?_, collects⟩
    have inBounds := (Array.getElem?_eq_some_iff.mp found).1
    exact (Array.getElem?_push_lt inBounds).trans
      ((Array.getElem?_eq_getElem inBounds).symm.trans found)
  have opened : Exchanges program base machine { machine with
      responses := machine.responses.push (Response.opening returns waits expected) } thread
      token (token.know (machine.responses.size, returns)) := by
    refine exchanges_responses rfl (Nat.le_refl _) rfl rfl rfl rfl keeps ?_ rfl rfl rfl
    intro call member
    rcases List.mem_cons.mp member with rfl | wasCall
    · exact .inr ⟨_, Array.getElem?_push_size, rfl, RegisterFile.sizes_ofSizes _⟩
    · exact .inl wasCall
  refine opened.trans ?_
  have counted : Counts { machine with
        responses := machine.responses.push (Response.opening returns waits expected) }
      (machine.openResponse returns waits expected).2 :=
    ⟨rfl, Nat.le_refl _, rfl, rfl, rfl⟩
  exact counted.exchanges ⟨{ responses := 1 }, rfl⟩ (List.suffix_refl _)
    (Machine.tilt_plus _ { responses := 1 })

theorem Process.follows_forgetting {Answer : Type} {process : Work Answer}
    {goal : Answer → Hand → Prop} {call : ResponseId × Layout}
    (isStep : ∃ ready update next, process = .step ready update next)
    (follows : process.Follows (.balancing program base) thread token goal) :
    process.Follows (.balancing program base) thread (token.know call) goal := by
  obtain ⟨ready, update, next, rfl⟩ := isStep
  intro machine hands fits holding
  have forgotten : Exchanges program base machine machine thread (token.know call) token :=
    exchanges_responses rfl (Nat.le_refl _) rfl rfl rfl rfl (fun _ _ => id)
      (fun _ member => .inl (List.mem_cons_of_mem _ member)) rfl rfl rfl
  refine ⟨fun isReady => ?_, fun _ => trivial⟩
  obtain ⟨permitted, after, fitsAfter, goesOn⟩ :=
    (follows machine _ (forgotten hands fits holding) (Function.update_self ..)).1 isReady
  rw [Function.update_idem] at fitsAfter
  exact ⟨permitted, after, fitsAfter, goesOn⟩

/-- The hand of a thread while a call is under way: the caller waits, and the thread has in hand the task
of the first worker of the unit. -/
def Balance.Hand.calling (hand : Hand) (unit : Callable) (caller : ContextId) (callerTask : Option Task)
    (task : Task) : Hand :=
  ((hand.hold caller (some ⟨.waiting, callerTask⟩)).hold task.context.id
    (some ⟨.runnable, some task⟩)).add
      (Tallies.tilt
        { contexts := unit.workers.length
          scheduled := unit.scheduledWorkers.length
          responses := 1 })

/-- The task that goes with a call, which is that of the first worker. -/
structure Callable.Calls (unit : Callable) (hand : Hand) (task : Task) : Prop where
  isFree : hand.held task.context.id = none
  starts : Happening.tilt (.started task) = tilt 0 0 (-1) (-unit.workers.length) 0

theorem Callable.Calls.ne_caller (calls : unit.Calls token task) {caller : ContextId}
    {holding : Holding} (isHeld : token.held caller = some holding) : caller ≠ task.context.id := by
  rintro rfl
  rw [calls.isFree] at isHeld
  cases isHeld

/-- What a dispatch counts: a response, the scheduled workers, and the first worker. -/
theorem Callable.tilt_dispatched (unit : Callable) :
    Tallies.tilt { responses := 1 } +
        (Tallies.tilt
          { contexts := unit.scheduledWorkers.length, scheduled := unit.scheduledWorkers.length } +
        Tallies.tilt { contexts := 1 }) =
      Tallies.tilt
        { contexts := unit.workers.length
          scheduled := unit.scheduledWorkers.length
          responses := 1 } := by
  unfold Tallies.tilt workers
  rw [tilt_add, tilt_add, List.length_cons]
  push_cast
  congr 1 <;> omega

/-- When the first worker of a unit has begun, all counts of the call are level. -/
theorem Callable.tilt_called (unit : Callable) :
    Tallies.tilt
        { contexts := unit.workers.length
          scheduled := unit.scheduledWorkers.length
          responses := 1 } +
        (Tallies.tilt { inCaller := 1 } + tilt 0 0 (-1) (-unit.workers.length) 0) = 0 := by
  unfold Tallies.tilt workers
  rw [tilt_add, tilt_add, List.length_cons, ← tilt_zero]
  push_cast
  congr 1 <;> omega

namespace Station

variable {callerTask : Option Task} {caller : ContextId}

section Joining

variable (tasks : station.BalancesTasks program base)

include tasks

/-- A caller that waits for its call runs the first worker, and runs again itself afterwards. -/
theorem settle_balances (runs : token.held caller = some ⟨.running, callerTask⟩)
    (calls : unit.Calls token task) :
    (station.settle ⟨unit, caller, task.response, some task⟩).Follows (.balancing program base)
      station.thread (token.calling unit caller callerTask task) (fun _ last => last = token)
      fun _ _ => False := by
  have isHeld : (token.calling unit caller callerTask task).held task.context.id =
      some ⟨.runnable, some task⟩ :=
    Hand.held_hold_self ..
  have afterFirst : ((token.calling unit caller callerTask task).hold task.context.id none).add
        (Tallies.tilt { inCaller := 1 } + Happening.tilt (.started task)) =
      ((token.hold caller (some ⟨.waiting, callerTask⟩)).hold task.context.id
        (some ⟨.runnable, some task⟩)).hold task.context.id none := by
    unfold Hand.calling
    rw [Hand.add_hold, Hand.add_add, calls.starts, unit.tilt_called, Hand.add_zero]
  unfold settle
  refine Effect.Follows.bind (runFirst_balances tasks rfl isHeld) ?_
  rintro _ _ rfl
  refine Effect.Follows.bind (park_balances tasks _) ?_
  rintro _ _ rfl
  have waits : (((token.hold caller (some ⟨.waiting, callerTask⟩)).hold task.context.id
        (some ⟨.runnable, some task⟩)).hold task.context.id none).held caller =
      some ⟨.waiting, callerTask⟩ := by
    rw [Hand.hold_hold, Hand.held_hold_of_ne _ _ _ (calls.ne_caller runs)]
    exact Hand.held_hold_self ..
  rw [afterFirst]
  refine Effect.Follows.bind (Effect.follows_work (resumeParent_balances waits (.inr rfl))) ?_
  rintro _ _ rfl
  exact Effect.follows_read fun _ _ _ _ => Hand.hold_back runs calls.isFree _ _

/-- Joining a call brings the hand back to what it was, and only a fault is told of unless results are
delivered. -/
theorem join_balances (runs : token.held caller = some ⟨.running, callerTask⟩)
    (calls : unit.Calls token task) (call : ResponseId × Layout) (target : RegisterFile)
    (indices : List Nat) :
    (station.join ⟨unit, caller, task.response, some task⟩ target indices).Follows
      (.balancing program base) station.thread ((token.calling unit caller callerTask task).know call)
      fun answer last => last = token ∧ answer.2.sizes = target.sizes ∧
        ∀ interruption, answer.1 = .error interruption →
          (∃ fault, interruption = .fault fault) ∨ indices ≠ [] := by
  refine Process.follows_forgetting ⟨_, _, _, rfl⟩ ?_
  have waits : (token.calling unit caller callerTask task).held caller =
      some ⟨.waiting, callerTask⟩ :=
    (Hand.held_hold_of_ne _ _ _ (calls.ne_caller runs)).trans (Hand.held_hold_self ..)
  unfold join
  refine Process.Follows.bind (suspend_balances waits) ?_
  rintro _ _ ⟨rfl, rfl⟩
  refine Process.Follows.bind (settle_balances tasks runs calls) ?_
  rintro settled _ reached
  cases settled with
  | error interruption => exact reached.elim
  | ok outcome =>
    cases reached
    refine Process.Follows.bind
      (Process.Follows.endsOnly (deliver_stays _ _ _ _) (deliver_endsOnly _ _ _ _)) ?_
    rintro answer last ⟨answers, isLast, sized⟩
    rw [isLast]
    have abandoned : (Invocation.abandon ⟨unit, caller, task.response, none⟩).Follows
        (.balancing program base) station.thread token fun _ last => last = token := by
      refine Process.Follows.bind (resumeParent_balances runs (.inl rfl)) ?_
      rintro _ _ rfl
      exact Hand.hold_eq_self runs
    refine Process.Follows.bind abandoned ?_
    rintro _ _ rfl
    exact ⟨rfl, sized, answers⟩

end Joining

section Dispatching

variable (tasks : station.BalancesTasks program base) (sound : program.Sound)
  (named : station.policy.NamesThreads) (accepts : ¬station.policy.TurnsAway)
  (isOwn : parent.arena = Machine.ownArena) (declared : program.Declares unit)

include tasks sound named accepts isOwn declared

/-- Dispatching a unit from a running context makes a context for every worker, and fails only if the
number of arguments is wrong. -/
theorem dispatch_balances (isHeld : token.held parent.id = some ⟨.running, callerTask⟩)
    (seeds : unit.checkArity arguments.length = .ok () → unit.SeedsAll source arguments) :
    (station.dispatch unit parent source arguments true).Follows (.balancing program base)
      station.thread token
      (fun invocation last => ∃ task, unit.Calls token task ∧
        invocation = ⟨unit, parent.id, task.response, some task⟩ ∧
          last = (token.calling unit parent.id callerTask task).know (task.response, unit.returns))
      (fun interruption last => (∃ fault, interruption = .fault fault) ∧ last = token) := by
  have checked : (Effect.ofExcept (unit.checkArity arguments.length)).Follows
      (.balancing program base) station.thread token
      (fun _ last => unit.SeedsAll source arguments ∧ last = token)
      (fun interruption last => (∃ fault, interruption = .fault fault) ∧ last = token) :=
    Effect.follows_ofExcept (fun _ isOk => ⟨seeds isOk, rfl⟩) fun fault _ => ⟨⟨fault, rfl⟩, rfl⟩
  unfold dispatch
  refine Effect.Follows.bind checked ?_
  rintro _ _ ⟨all, rfl⟩
  refine Effect.Follows.bind openResponse_balances ?_
  rintro response _ rfl
  rw [if_pos rfl]
  refine Effect.Follows.bind (beginWait_balances isOwn (by exact isHeld)) ?_
  rintro _ _ ⟨rfl, rfl⟩
  refine Effect.Follows.orElseRun_of_never ?_
  refine Effect.Follows.bind (scheduleWorkers_balances tasks sound named accepts isOwn declared
    (fun worker member => List.mem_cons_of_mem _ member) all (by exact List.mem_cons_self)) ?_
  rintro _ _ rfl
  obtain ⟨locals, seeded⟩ := all unit.callerWorker List.mem_cons_self
  refine Effect.Follows.bind (prepareTask_balances isOwn declared List.mem_cons_self seeded
    (by exact List.mem_cons_self) true) ?_
  rintro _ _ ⟨⟨id, rfl⟩, isFree, rfl⟩
  refine ⟨_, ⟨Hand.held_eq_none_of_hold isFree, rfl⟩, rfl, ?_⟩
  unfold Hand.calling
  rw [← unit.tilt_dispatched]
  simp only [Hand.add, Hand.hold, Hand.know, add_assoc]
  rfl

end Dispatching

section Calling

variable (tasks : station.BalancesTasks program base) (sound : program.Sound)
  (named : station.policy.NamesThreads) (accepts : ¬station.policy.TurnsAway)
  (declared : program.Declares unit)

include tasks sound named accepts declared

/-- A call with registers brings the hand back to what it was, and is interrupted only by a fault unless
results are delivered. -/
theorem callRegisters_balances {context : Context} (isOwn : context.arena = Machine.ownArena)
    (runs : token.held context.id = some ⟨.running, callerTask⟩) (arguments returns : List Nat)
    (seeds : unit.checkArity arguments.length = .ok () → unit.SeedsAll context.locals arguments) :
    (station.callRegisters unit arguments returns).Follows (.balancing program base) station.thread
      context token
      (fun _ after last => context.LeftAs after ∧ after.locals.sizes = context.locals.sizes ∧
        last = token)
      (fun interruption after last => ((∃ fault, interruption = .fault fault) ∨ returns ≠ []) ∧
        context.LeftAs after ∧ after.locals.sizes = context.locals.sizes ∧ last = token) := by
  have unchanged : context.LeftAs context := ⟨rfl, rfl, rfl, rfl⟩
  have looked : (get : Routine Context).Follows (.balancing program base) station.thread context token
      (fun before after last => context = before ∧ context = after ∧ last = token)
      (fun interruption after last => ((∃ fault, interruption = .fault fault) ∨ returns ≠ []) ∧
        context.LeftAs after ∧ after.locals.sizes = context.locals.sizes ∧ last = token) :=
    Routine.follows_get ⟨rfl, rfl, rfl⟩
  have dispatched : (liftM (station.dispatch unit context context.locals arguments true) :
      Routine Invocation).Follows (.balancing program base) station.thread context token
        (fun invocation after last => context = after ∧ ∃ task, unit.Calls token task ∧
          invocation = ⟨unit, context.id, task.response, some task⟩ ∧
            last = (token.calling unit context.id callerTask task).know
              (task.response, unit.returns))
        (fun interruption after last => ((∃ fault, interruption = .fault fault) ∨ returns ≠ []) ∧
          context.LeftAs after ∧ after.locals.sizes = context.locals.sizes ∧ last = token) := by
    refine Routine.follows_effect ((dispatch_balances tasks sound named accepts isOwn declared runs
      seeds).weaken ?_ ?_)
    · exact fun _ _ reached => ⟨rfl, reached⟩
    · exact fun _ _ reached => ⟨.inl reached.1, unchanged, rfl, reached.2⟩
  unfold callRegisters
  refine looked.bind ?_
  rintro _ _ last ⟨rfl, rfl, isLast⟩
  rw [isLast]
  refine dispatched.bind ?_
  rintro _ _ _ ⟨rfl, task, calls, rfl, rfl⟩
  have joined : (liftM (station.join ⟨unit, context.id, task.response, some task⟩ context.locals
        returns : Work _) : Routine _).Follows (.balancing program base) station.thread context
      ((token.calling unit context.id callerTask task).know (task.response, unit.returns))
      (fun answer after last => context = after ∧ last = token ∧
        answer.2.sizes = context.locals.sizes ∧ ∀ interruption, answer.1 = .error interruption →
          (∃ fault, interruption = .fault fault) ∨ returns ≠ [])
      (fun interruption after last => ((∃ fault, interruption = .fault fault) ∨ returns ≠ []) ∧
        context.LeftAs after ∧ after.locals.sizes = context.locals.sizes ∧ last = token) :=
    Routine.follows_work (Process.Follows.weaken (join_balances tasks runs calls _ _ _)
      fun _ _ reached => ⟨rfl, reached⟩)
  refine joined.bind ?_
  rintro ⟨outcome, locals⟩ _ _ ⟨rfl, isToken, sized, stops⟩
  dsimp only
  split
  · exact ⟨⟨rfl, rfl, rfl, rfl⟩, sized, isToken⟩
  · exact ⟨.inl ⟨_, rfl⟩, ⟨rfl, rfl, rfl, rfl⟩, sized, isToken⟩
  · exact ⟨stops _ rfl, ⟨rfl, rfl, rfl, rfl⟩, sized, isToken⟩

/-- A call with values brings the hand back to what it was. -/
theorem callValues_balances (isOwn : parent.arena = Machine.ownArena)
    (runs : token.held parent.id = some ⟨.running, callerTask⟩) (arguments : List Value) :
    (station.callValues unit parent arguments).Stays (.balancing program base) station.thread token
      fun _ => True := by
  unfold callValues
  refine Effect.Stays.bind (Effect.stays_ofExcept fun _ _ => trivial) fun _ _ => ?_
  refine Effect.Stays.bind (Effect.stays_mk fun source isLowered => isLowered) fun source isLowered =>
    ?_
  have lowered : Marshalling.lower unit.params arguments = .ok source := isLowered
  refine Effect.Follows.bind ((dispatch_balances tasks sound named accepts isOwn declared runs
    fun _ => (sound.of_declares declared).seedsAll_lowered lowered).weaken (fun _ _ => id)
      fun _ _ reached => reached.2) ?_
  rintro _ _ ⟨task, calls, rfl, rfl⟩
  refine Effect.Follows.bind (Effect.follows_work (join_balances tasks runs calls _ _ _)) ?_
  rintro ⟨outcome, results⟩ last ⟨isLast, _⟩
  rw [isLast]
  refine Effect.Stays.bind (Effect.stays_mk fun _ _ => trivial) fun _ _ => ?_
  exact Effect.stays_ofAccess fun _ _ => trivial

end Calling

end Station

end WorkerMachine
