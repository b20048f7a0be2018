import WorkerMachine.Machine.Initialization
import WorkerMachine.Proofs.Machine.Mildness
import WorkerMachine.Proofs.Process.Staying
import WorkerMachine.Proofs.Registers.Copying
/-!
# What a machine does around the bodies of workers

Scheduling, waiting, gathering results and delivering them are all mild: above all they leave global
memory and the gate alone.  So a discipline that tolerates what is mild is followed with one token in
hand by every call, if only the tasks that are run follow it; and a call never changes the sizes of
the registers of its caller.
-/

namespace WorkerMachine

variable {Thread Token Answer : Type} [DecidableEq Thread]

/-- While a thread holds a token, a discipline tolerates every step of it that leaves global memory
and the gate alone, and every wait. -/
structure Discipline.Tolerates (discipline : Discipline Thread Machine Token) (thread : Thread)
    (token : Token) : Prop where
  tolerates : ∀ machine later hands, discipline.fits machine hands → hands thread = token →
    later.globals = machine.globals → later.gate = machine.gate →
      discipline.permits machine later ∧ discipline.fits later hands
  excuses : ∀ machine hands, discipline.fits machine hands → hands thread = token →
    discipline.excuses machine hands thread

/-- While a thread holds a token, a discipline tolerates every mild step of it, and every wait. -/
structure Discipline.ToleratesMild (discipline : Discipline Thread Machine Token) (thread : Thread)
    (token : Token) : Prop where
  tolerates : ∀ machine later hands, discipline.fits machine hands → hands thread = token →
    machine.Mild later → discipline.permits machine later ∧ discipline.fits later hands
  excuses : ∀ machine hands, discipline.fits machine hands → hands thread = token →
    discipline.excuses machine hands thread

/-- While a thread holds a token, a discipline tolerates that it begins and ends tasks. -/
structure Discipline.ToleratesTasks (discipline : Discipline Thread Machine Token) (thread : Thread)
    (token : Token) : Prop where
  starts : ∀ machine hands task, discipline.fits machine hands → hands thread = token →
    discipline.permits machine (machine.startTask task).2 ∧
      discipline.fits (machine.startTask task).2 hands
  ends : ∀ machine hands task outcome after, discipline.fits machine hands →
    hands thread = token → discipline.permits machine (machine.endTask task outcome after).2 ∧
      discipline.fits (machine.endTask task outcome after).2 hands

/-- Every task that is run on a station follows a discipline with one token in hand. -/
def Station.TasksStay (station : Station) (discipline : Discipline Thread Machine Token)
    (thread : Thread) (token : Token) : Prop :=
  ∀ task, (station.runTask task).Stays discipline thread token fun _ => True

/-- Every call that passes the gate from a station follows a discipline with one token in hand. -/
def Station.InitsStay (station : Station) (discipline : Discipline Thread Machine Token)
    (thread : Thread) (token : Token) : Prop :=
  ∀ package caller,
    (station.ensureInitialized package caller).Stays discipline thread token fun _ => True

/-- Every call into a package of the program that passes the gate from a station follows a discipline
with one token in hand. -/
def Station.GatesStay (station : Station) (discipline : Discipline Thread Machine Token)
    (thread : Thread) (token : Token) : Prop :=
  ∀ name package, station.program.package name = .ok package → ∀ caller,
    (station.ensureInitialized package caller).Stays discipline thread token fun _ => True

/-- Every store in global memory follows a discipline with one token in hand. -/
def Discipline.StoresStay (discipline : Discipline Thread Machine Token) (thread : Thread)
    (token : Token) : Prop :=
  ∀ slot value, (storeGlobal slot value).Stays discipline thread token fun _ => True

def Context.SameSizes (before after : Context) : Prop :=
  after.locals.sizes = before.locals.sizes ∧ after.results.sizes = before.results.sizes

variable {discipline : Discipline Thread Machine Token} {thread : Thread} {token : Token}

theorem Station.InitsStay.gates {station : Station}
    (inits : station.InitsStay discipline thread token) :
    station.GatesStay discipline thread token :=
  fun _ package _ caller => inits package caller

omit [DecidableEq Thread] in
theorem Discipline.Tolerates.mild (tolerance : discipline.Tolerates thread token) :
    discipline.ToleratesMild thread token where
  tolerates := fun machine later hands fits holding mild =>
    tolerance.tolerates machine later hands fits holding mild.globals mild.gate
  excuses := tolerance.excuses

/-- The globals and the gate are none of the business of a task that begins. -/
theorem Machine.startTask_spares (task : Task) (machine : Machine) :
    (machine.startTask task).2.globals = machine.globals ∧
      (machine.startTask task).2.gate = machine.gate := by
  unfold Machine.startTask
  split
  · next moved =>
    have same := congrArg (fun answer => (answer.2.globals, answer.2.gate)) moved.symm
    exact Prod.mk.inj same
  · next moved =>
    have same := congrArg (fun answer => (answer.2.globals, answer.2.gate)) moved.symm
    exact Prod.mk.inj same

omit [DecidableEq Thread] in
theorem Discipline.Tolerates.tasks (tolerance : discipline.Tolerates thread token) :
    discipline.ToleratesTasks thread token where
  starts := fun machine hands task fits holding =>
    tolerance.tolerates machine _ hands fits holding (machine.startTask_spares task).1
      (machine.startTask_spares task).2
  ends := fun machine _ _ _ _ fits holding =>
    tolerance.tolerates machine _ _ fits holding rfl rfl

theorem access_stays {operation : Machine → Except Overrun Answer × Machine}
    (kept : ∀ machine hands, discipline.fits machine hands → hands thread = token →
      discipline.permits machine (operation machine).2 ∧
        discipline.fits (operation machine).2 hands) :
    (Effect.atomically operation >>= Effect.ofAccess).Stays discipline thread token
      fun _ => True := by
  have tried : (Effect.atomically operation).Stays discipline thread token fun _ => True := by
    refine Effect.stays_work (Process.stays_atomically fun machine hands fits holding => ?_)
    obtain ⟨permitted, fitsAfter⟩ := kept machine hands fits holding
    exact ⟨permitted, fitsAfter, trivial⟩
  exact tried.bind fun _ _ => Effect.stays_ofAccess fun _ _ => trivial

/-- A store in global memory replaces it or leaves it alone. -/
theorem storeGlobal_stays (slot : Slot) (value : Value)
    (stored : ∀ machine hands globals, discipline.fits machine hands → hands thread = token →
      machine.globals.storeOrKeep slot value = .ok globals →
        discipline.permits machine { machine with globals := globals } ∧
          discipline.fits { machine with globals := globals } hands) :
    (storeGlobal slot value).Stays discipline thread token fun _ => True := by
  refine access_stays fun machine hands fits holding => ?_
  split
  · next globals succeeds =>
    exact stored machine hands globals fits holding succeeds
  · exact ⟨discipline.permits_refl machine, fits⟩

section Tolerance

variable (tolerance : discipline.ToleratesMild thread token)

include tolerance

/-! ## Single steps -/

theorem Process.tolerated_atomically {operation : Machine → Answer × Machine}
    (spared : ∀ machine : Machine, machine.Mild (operation machine).2) :
    (atomically operation).Stays discipline thread token fun _ => True := by
  refine stays_atomically fun machine hands fits holding => ?_
  obtain ⟨permitted, fitsAfter⟩ :=
    tolerance.tolerates machine _ hands fits holding (spared machine)
  exact ⟨permitted, fitsAfter, trivial⟩

theorem Process.tolerated_modify {update : Machine → Machine}
    (spared : ∀ machine : Machine, machine.Mild (update machine)) :
    (modify update).Stays discipline thread token fun _ => True :=
  stays_modify (fun machine hands fits holding =>
    tolerance.tolerates machine _ hands fits holding (spared machine)) trivial

theorem Effect.tolerated_atomically {operation : Machine → Answer × Machine}
    (spared : ∀ machine : Machine, machine.Mild (operation machine).2) :
    (atomically operation).Stays discipline thread token fun _ => True :=
  stays_work (Process.tolerated_atomically tolerance spared)

theorem Effect.tolerated_modify {update : Machine → Machine}
    (spared : ∀ machine : Machine, machine.Mild (update machine)) :
    (modify update).Stays discipline thread token fun _ => True :=
  stays_work (Process.tolerated_modify tolerance spared)

theorem Effect.tolerated_waitUntil (ready : Machine → Bool) :
    (waitUntil ready).Stays discipline thread token fun _ => True := by
  refine follows_waitUntil ?_ ?_
  · intro machine hands fits holding _
    exact tolerance.excuses machine hands fits holding
  · intro machine hands fits holding _
    refine ⟨token, ?_, rfl, trivial⟩
    rw [← holding, Function.update_eq_self]
    exact fits

theorem Effect.tolerated_stall :
    (stall : Effect Answer).Stays discipline thread token fun _ => True :=
  follows_stall tolerance.excuses

omit tolerance in
theorem Effect.tolerated_read (view : Machine → Answer) :
    (read view).Stays discipline thread token fun _ => True :=
  stays_read fun _ _ _ _ => trivial

theorem contributeTo_stays (response : ResponseId) (worker : ContextId) (outcome : WorkerOutcome)
    (result : RegisterFile) :
    (contributeTo response worker outcome result).Stays discipline thread token
      fun _ => True :=
  Effect.Stays.bind (Effect.tolerated_atomically tolerance fun _ => Machine.mild_of_same rfl rfl rfl rfl rfl rfl) fun _ _ =>
    Effect.stays_ofAccess fun _ _ => trivial

theorem registerContext_stays (arena : ArenaKey) (record : ContextRecord) :
    (registerContext arena record).Stays discipline thread token fun _ => True :=
  Effect.tolerated_atomically tolerance fun machine =>
    machine.mild_inArena arena fun records => records.register_ages record

theorem moveContext_stays (arena : ArenaKey) (id : ContextId) (next : ContextState) :
    (moveContext arena id next).Stays discipline thread token fun _ => True :=
  Effect.tolerated_atomically tolerance fun machine =>
    machine.mild_inArena arena fun records => records.transition_ages id next

theorem release_stays (context : Context) :
    context.release.Stays discipline thread token fun _ => True :=
  Process.tolerated_modify tolerance fun machine =>
    machine.mild_alterArena context.arena fun records => records.release_ages context.id

theorem openChild_stays (parent : Context) :
    parent.openChild.Stays discipline thread token
      fun context => context.locals = .empty ∧ context.results = .empty :=
  (registerContext_stays tolerance _ _).bind fun _ _ => Effect.stays_pure ⟨rfl, rfl⟩

theorem resumeParent_stays (parent : ContextId) :
    (resumeParent parent).Stays discipline thread token fun _ => True :=
  Process.tolerated_modify tolerance fun machine =>
    machine.mild_alterArena Machine.ownArena fun records => records.resume_ages parent

theorem tally_stays (count : Tallies → Tallies) :
    (tally count).Stays discipline thread token fun _ => True :=
  Effect.tolerated_modify tolerance fun _ => Machine.mild_of_same rfl rfl rfl rfl rfl rfl

theorem dispose_stays (task : Task) :
    task.dispose.Stays discipline thread token fun _ => True :=
  Process.Stays.bind (Process.tolerated_modify tolerance fun _ => Machine.mild_of_same rfl rfl rfl rfl rfl rfl)
    fun _ _ => release_stays tolerance task.context

theorem abandon_stays (invocation : Invocation) :
    invocation.abandon.Stays discipline thread token fun _ => True := by
  refine (resumeParent_stays tolerance invocation.parent).bind fun _ _ => ?_
  split
  · exact dispose_stays tolerance _
  · exact Process.stays_done trivial

/-! ## Scheduling and waiting -/

namespace Station

variable {station : Station}

theorem runScheduled_stays (tasks : station.TasksStay discipline thread token) (task : Task) :
    (station.runScheduled task).Stays discipline thread token fun _ => True :=
  (tasks task).bind fun _ _ => Effect.tolerated_modify tolerance fun _ => Machine.mild_of_same rfl rfl rfl rfl rfl rfl

theorem schedule_stays (tasks : station.TasksStay discipline thread token) (task : Task) :
    (station.schedule task).Stays discipline thread token fun _ => True := by
  unfold schedule
  split
  · refine Effect.Stays.bind (Effect.tolerated_modify tolerance fun _ => Machine.mild_of_same rfl rfl rfl rfl rfl rfl) fun _ _ => ?_
    split
    · exact runScheduled_stays tolerance tasks task
    · exact Effect.tolerated_modify tolerance fun _ => Machine.mild_of_same rfl rfl rfl rfl rfl rfl
    · exact Effect.tolerated_modify tolerance fun _ => Machine.mild_of_same rfl rfl rfl rfl rfl rfl
    · exact Effect.stays_work (dispose_stays tolerance task)
    · exact (Effect.stays_work (dispose_stays tolerance task)).bind fun _ _ => Effect.stays_fail _
  · split
    · refine Effect.Stays.bind (Effect.tolerated_modify tolerance fun _ => Machine.mild_of_same rfl rfl rfl rfl rfl rfl) fun _ _ => ?_
      exact (Effect.stays_work (dispose_stays tolerance task)).bind fun _ _ => Effect.stays_throw _
    · exact (Effect.stays_work (dispose_stays tolerance task)).bind fun _ _ => Effect.stays_fail _
    · exact Effect.tolerated_modify tolerance fun _ => Machine.mild_of_same rfl rfl rfl rfl rfl rfl
  · split
    · exact Effect.Stays.bind (Effect.tolerated_modify tolerance fun _ => Machine.mild_of_same rfl rfl rfl rfl rfl rfl)
        fun _ _ => Effect.stays_throw _
    · exact Effect.tolerated_modify tolerance fun _ => Machine.mild_of_same rfl rfl rfl rfl rfl rfl

theorem runInCaller_stays (tasks : station.TasksStay discipline thread token) (task : Task) :
    (station.runInCaller task).Stays discipline thread token fun _ => True := by
  unfold runInCaller
  refine (tasks task).bind fun _ _ => ?_
  split
  · exact Effect.Stays.bind (Effect.tolerated_modify tolerance fun _ => Machine.mild_of_same rfl rfl rfl rfl rfl rfl)
      fun _ _ => Effect.stays_pure trivial
  · exact Effect.stays_pure trivial
  · exact Effect.stays_pure trivial

theorem drain_stays (tasks : station.TasksStay discipline thread token) (newest : Bool)
    (bound : Nat) :
    (station.drain newest bound).Stays discipline thread token fun _ => True := by
  induction bound with
  | zero =>
      exact Effect.tolerated_waitUntil tolerance _
  | succ bound inductionHypothesis =>
      unfold drain
      refine Effect.Stays.bind (Effect.tolerated_atomically tolerance ?_) fun next _ => ?_
      · intro machine
        unfold Machine.dequeue
        split
        · exact Machine.mild_of_same rfl rfl rfl rfl rfl rfl
        · exact Machine.mild_of_same rfl rfl rfl rfl rfl rfl
      · cases next with
        | none =>
            exact Effect.stays_pure trivial
        | some task =>
            exact (runScheduled_stays tolerance tasks task).bind fun _ _ => inductionHypothesis

theorem drainQueue_stays (tasks : station.TasksStay discipline thread token) :
    station.drainQueue.Stays discipline thread token fun _ => True := by
  unfold drainQueue
  split
  · exact drain_stays tolerance tasks _ _
  · exact Effect.stays_pure trivial
  · exact Effect.stays_pure trivial

theorem park_stays (tasks : station.TasksStay discipline thread token) (response : ResponseId) :
    (station.park response).Stays discipline thread token fun _ => True := by
  unfold park
  split
  · refine (Effect.tolerated_read _).bind fun _ _ => ?_
    refine Effect.Stays.bind (Effect.tolerated_modify tolerance fun _ => Machine.mild_of_same rfl rfl rfl rfl rfl rfl) fun _ _ => ?_
    exact (drainQueue_stays tolerance tasks).bind fun _ _ => Effect.tolerated_waitUntil tolerance _
  · exact Effect.tolerated_waitUntil tolerance _
  · exact Effect.tolerated_waitUntil tolerance _

end Station

/-! ## Invocations -/

theorem prepareTask_stays (unit : Callable) (worker : Worker) (parent : Context)
    (source : RegisterFile) (arguments : List Nat) (response : ResponseId) (inCaller : Bool) :
    (prepareTask unit worker parent source arguments response inCaller).Stays
      discipline thread token fun _ => True := by
  unfold prepareTask
  refine (Effect.stays_ofAccess fun _ _ => trivial).bind fun locals _ => ?_
  refine (registerContext_stays tolerance _ _).bind fun id _ => ?_
  refine (tally_stays tolerance _).bind fun _ _ => ?_
  refine Effect.Stays.orElseRun ?_ (release_stays tolerance _)
  refine (moveContext_stays tolerance _ _ _).bind fun moved _ => ?_
  exact (Effect.stays_ofExcept fun _ _ => trivial).bind fun _ _ => Effect.stays_pure trivial

namespace Station

variable {station : Station}

theorem scheduleWorkers_stays (tasks : station.TasksStay discipline thread token) (unit : Callable)
    (parent : Context) (source : RegisterFile) (arguments : List Nat) (response : ResponseId)
    (workers : List Worker) :
    (station.scheduleWorkers unit parent source arguments response workers).Stays
      discipline thread token fun _ => True := by
  induction workers with
  | nil =>
      exact Effect.stays_pure trivial
  | cons worker rest inductionHypothesis =>
      unfold scheduleWorkers
      refine (prepareTask_stays tolerance _ _ _ _ _ _ _).bind fun task _ => ?_
      refine (tally_stays tolerance _).bind fun _ _ => ?_
      exact (schedule_stays tolerance tasks task).bind fun _ _ => inductionHypothesis

theorem dispatch_stays (tasks : station.TasksStay discipline thread token) (unit : Callable)
    (parent : Context) (source : RegisterFile) (arguments : List Nat) (waits : Bool) :
    (station.dispatch unit parent source arguments waits).Stays discipline thread token
      fun _ => True := by
  have rest : ∀ response : ResponseId,
      (Effect.orElseRun (do
          station.scheduleWorkers unit parent source arguments response unit.scheduledWorkers
          let task ← prepareTask unit unit.callerWorker parent source arguments response true
          return (⟨unit, parent.id, response, some task⟩ : Invocation))
        (resumeParent parent.id)).Stays discipline thread token fun _ => True := by
    intro response
    refine Effect.Stays.orElseRun ?_ (resumeParent_stays tolerance _)
    refine (scheduleWorkers_stays tolerance tasks _ _ _ _ _ _).bind fun _ _ => ?_
    exact (prepareTask_stays tolerance _ _ _ _ _ _ _).bind fun _ _ => Effect.stays_pure trivial
  unfold dispatch
  refine (Effect.stays_ofExcept fun _ _ => trivial).bind fun _ _ => ?_
  refine Effect.Stays.bind (Effect.tolerated_atomically tolerance fun _ => Machine.mild_of_same rfl rfl rfl rfl rfl rfl)
    fun response _ => ?_
  split
  · refine Effect.Stays.bind (Effect.tolerated_atomically tolerance fun machine =>
      machine.mild_inArena parent.arena fun records => records.beginWait_ages parent.id)
      fun waiting _ => ?_
    exact (Effect.stays_ofExcept fun _ _ => trivial).bind fun _ _ => rest response
  · exact rest response

theorem runFirst_stays (tasks : station.TasksStay discipline thread token)
    (invocation : Invocation) :
    (station.runFirst invocation).Stays discipline thread token fun _ => True := by
  unfold runFirst
  split
  · exact Effect.stays_pure trivial
  · refine (tally_stays tolerance _).bind fun _ _ => ?_
    exact (runInCaller_stays tolerance tasks _).bind fun _ _ => Effect.stays_pure trivial

theorem settle_stays (tasks : station.TasksStay discipline thread token) (invocation : Invocation) :
    (station.settle invocation).Stays discipline thread token fun _ => True := by
  unfold settle
  refine (runFirst_stays tolerance tasks invocation).bind fun _ _ => ?_
  refine (park_stays tolerance tasks _).bind fun _ _ => ?_
  refine (Effect.stays_work (resumeParent_stays tolerance _)).bind fun _ _ => ?_
  exact Effect.tolerated_read _

omit tolerance in
theorem deliver_stays (invocation : Invocation) (outcome : ResponseOutcome)
    (target : RegisterFile) (indices : List Nat) :
    (deliver invocation outcome target indices).Stays discipline thread token
      fun answer => answer.2.sizes = target.sizes := by
  unfold deliver
  split
  · have delivered : (Process.read fun machine : Machine =>
          (machine.response invocation.response).deliverInto target indices).Stays
        discipline thread token fun answer => answer.1.sizes = target.sizes :=
      Process.stays_read fun machine _ _ _ => Response.sizes_deliverInto _ target indices
    refine delivered.bind fun answer sameSizes => ?_
    obtain ⟨file, copied⟩ := answer
    cases copied with
    | ok _ =>
        exact Process.stays_done sameSizes
    | error overrun =>
        exact Process.stays_done sameSizes
  · exact Process.stays_done rfl
  · exact Process.stays_done rfl

theorem join_stays (tasks : station.TasksStay discipline thread token) (invocation : Invocation)
    (target : RegisterFile) (indices : List Nat) :
    (station.join invocation target indices).Stays discipline thread token
      fun answer => answer.2.sizes = target.sizes := by
  unfold join
  refine Process.Stays.bind (Process.tolerated_atomically tolerance fun machine =>
    machine.mild_inArena Machine.ownArena fun records => records.suspend_ages invocation.parent)
    fun suspended _ => ?_
  cases suspended with
  | error fault =>
      exact (abandon_stays tolerance invocation).bind fun _ _ => Process.stays_done rfl
  | ok _ =>
      refine (settle_stays tolerance tasks invocation).run.bind fun settled _ => ?_
      have finish : ∀ {work : Work (Except Interruption Unit × RegisterFile)},
          (work.Stays discipline thread token fun answer => answer.2.sizes = target.sizes) →
            (work.bind fun answer =>
                (Invocation.abandon { invocation with callerTask := none }).bind fun _ =>
                  .done answer).Stays
              discipline thread token fun answer => answer.2.sizes = target.sizes := by
        intro work stays
        exact stays.bind fun _ sameSizes =>
          (abandon_stays tolerance _).bind fun _ _ => Process.stays_done sameSizes
      cases settled with
      | ok outcome =>
          exact finish (deliver_stays invocation outcome target indices)
      | error interruption =>
          exact finish (Process.stays_done rfl)

/-- A call may change the local registers and the error slot of its caller, but not the sizes of its
registers, however it ends. -/
theorem callRegisters_stays (tasks : station.TasksStay discipline thread token) (unit : Callable)
    (arguments returns : List Nat) (context : Context) :
    (station.callRegisters unit arguments returns).Stays discipline thread token context
      (fun _ after => context.SameSizes after) context.SameSizes := by
  have unchanged : context.SameSizes context := ⟨rfl, rfl⟩
  unfold callRegisters
  have looked : (get : Routine Context).Stays discipline thread token context
      (fun before after => context = before ∧ context = after) context.SameSizes :=
    Routine.stays_get ⟨rfl, rfl⟩
  refine looked.bind fun before after same => ?_
  obtain ⟨rfl, rfl⟩ := same
  have dispatched : (liftM (station.dispatch unit context context.locals arguments true) :
      Routine Invocation).Stays discipline thread token context
        (fun _ after => context = after) context.SameSizes :=
    Routine.stays_effect ((dispatch_stays tolerance tasks _ _ _ _ _).weaken fun _ _ => rfl)
      unchanged
  refine dispatched.bind fun invocation after same => ?_
  subst same
  have joined : (liftM (station.join invocation context.locals returns : Work _) :
      Routine _).Stays discipline thread token context
        (fun answer last => context = last ∧ answer.2.sizes = context.locals.sizes)
        context.SameSizes :=
    Routine.stays_work ((join_stays tolerance tasks _ _ _).weaken
      fun _ sameSizes => ⟨rfl, sameSizes⟩)
  refine joined.bind fun answer last reached => ?_
  obtain ⟨rfl, sameSizes⟩ := reached
  obtain ⟨outcome, locals⟩ := answer
  have delivered : context.SameSizes { context with locals := locals } := ⟨sameSizes, rfl⟩
  dsimp only
  split
  · exact Routine.stays_set delivered
  · exact ⟨rfl, delivered⟩
  · exact ⟨rfl, delivered⟩

/-! ## Tasks -/

theorem carryOut_stays {interpreter : Interpreter}
    (taskTolerance : discipline.ToleratesTasks thread token)
    (bodies : ∀ context, (interpreter station).Stays discipline thread token context
      (fun _ _ => True) fun _ => True) (task : Task) :
    (station.carryOut interpreter task).Stays discipline thread token fun _ => True := by
  unfold carryOut
  refine Effect.Stays.followedBy ?_ (release_stays tolerance task.context)
  have starts : (Effect.atomically (Machine.startTask task)).Stays discipline thread token
      fun _ => True := by
    refine Effect.stays_work (Process.stays_atomically fun machine hands fits holding => ?_)
    obtain ⟨permitted, fitsAfter⟩ := taskTolerance.starts machine hands task fits holding
    exact ⟨permitted, fitsAfter, trivial⟩
  refine starts.bind fun started _ => ?_
  cases started with
  | error fault =>
      exact (contributeTo_stays tolerance _ _ _ _).bind fun _ _ => Effect.stays_pure trivial
  | ok state =>
      have run : (liftM ((interpreter station).runOn task.context : Work _) :
          Effect _).Stays discipline thread token fun _ => True :=
        Effect.stays_work (bodies task.context).run
      refine run.bind fun answer _ => ?_
      refine Effect.Stays.bind (Effect.tolerated_modify tolerance fun machine =>
        machine.mild_alterArena answer.2.arena fun records => records.finish_ages _ _) fun _ _ => ?_
      have ends : (Effect.atomically (Machine.endTask task answer.1 answer.2)).Stays
          discipline thread token fun _ => True := by
        refine Effect.stays_work (Process.stays_atomically fun machine hands fits holding => ?_)
        obtain ⟨permitted, fitsAfter⟩ :=
          taskTolerance.ends machine hands task answer.1 answer.2 fits holding
        exact ⟨permitted, fitsAfter, trivial⟩
      refine ends.bind fun _ _ => ?_
      exact (Effect.stays_ofAccess fun _ _ => trivial).bind fun _ _ => Effect.stays_pure trivial

end Station

end Tolerance

/-! ## Inits -/

namespace Station

theorem resolveConstants_spares (values : List (Nat × Constant)) (machine : Machine) :
    (machine.resolveConstants values).globals = machine.globals ∧
      (machine.resolveConstants values).gate = machine.gate := by
  unfold Machine.resolveConstants
  induction values generalizing machine with
  | nil =>
      exact ⟨rfl, rfl⟩
  | cons value rest inductionHypothesis =>
      rw [List.foldl_cons]
      obtain ⟨sameGlobals, sameGate⟩ :=
        inductionHypothesis (machine.resolveConstant value.1 value.2)
      rw [sameGlobals, sameGate]
      unfold Machine.resolveConstant
      split
      · exact ⟨rfl, rfl⟩
      · exact ⟨rfl, rfl⟩

/-- Constants are resolved without a change of global memory or of the gate. -/
theorem resolvePending_stays (tolerance : discipline.Tolerates thread token) (package : Package) :
    (resolvePending package).Stays discipline thread token fun _ => True := by
  have changes : ∀ {update : Machine → Machine}, (∀ machine, (update machine).globals =
      machine.globals ∧ (update machine).gate = machine.gate) →
        (Effect.modify update).Stays discipline thread token fun _ => True := by
    intro update spared
    refine Effect.stays_work (Process.stays_modify (fun machine hands fits holding => ?_) trivial)
    exact tolerance.tolerates machine _ hands fits holding (spared machine).1 (spared machine).2
  have taken : (Effect.atomically (Machine.takePending package.name)).Stays discipline thread token
      fun _ => True := by
    refine Effect.stays_work (Process.stays_atomically fun machine hands fits holding => ?_)
    obtain ⟨permitted, fitsAfter⟩ := tolerance.tolerates machine
      (machine.takePending package.name).2 hands fits holding rfl rfl
    exact ⟨permitted, fitsAfter, trivial⟩
  unfold resolvePending
  refine taken.bind fun waiting _ => ?_
  refine (Effect.tolerated_read _).bind fun constants _ => ?_
  split
  · next values =>
    exact changes (resolveConstants_spares values)
  · refine Effect.Stays.bind (changes fun _ => ?_) fun _ _ => Effect.stays_fail _
    exact ⟨rfl, rfl⟩

end Station

/-! ## Keeping to a station -/

/-- A routine keeps to a station if it comes to global memory and to the gate only as the machine
offers it: by storing in global memory, by passing the gate from the station, and by running tasks
there.  So it follows every discipline that is followed in all that. -/
def Routine.KeepsTo (station : Station) (routine : Routine Answer) : Prop :=
  ∀ {Thread Token : Type} [DecidableEq Thread] (discipline : Discipline Thread Machine Token)
    (thread : Thread) (token : Token), discipline.Tolerates thread token →
      station.TasksStay discipline thread token → station.InitsStay discipline thread token →
      discipline.StoresStay thread token → ∀ context,
        routine.Stays discipline thread token context (fun _ _ => True) fun _ => True

def Work.KeepsTo (station : Station) (work : Work Answer) : Prop :=
  ∀ {Thread Token : Type} [DecidableEq Thread] (discipline : Discipline Thread Machine Token)
    (thread : Thread) (token : Token), discipline.Tolerates thread token →
      station.TasksStay discipline thread token → station.InitsStay discipline thread token →
      discipline.StoresStay thread token → work.Stays discipline thread token fun _ => True

/-- An interpreter all of whose bodies keep to the station on which they are carried out. -/
def Interpreter.KeepsToStation (interpreter : Interpreter) : Prop :=
  ∀ station, (interpreter station).KeepsTo station

/-- If passing the gate and storing in global memory follow a discipline wherever tasks do, then all
tasks follow it, with any token of a kind. -/
theorem Interpreter.KeepsToStation.tasks_stay {interpreter : Interpreter}
    (keeps : interpreter.KeepsToStation) (setup : Setup) (number : ThreadId)
    (tolerant : Token → Prop)
    (tolerance : ∀ token, tolerant token → discipline.Tolerates thread token)
    (inits : ∀ depth,
      (∀ token, tolerant token →
        (setup.station interpreter number depth).TasksStay discipline thread token) →
      ∀ token, tolerant token →
        (setup.station interpreter number depth).InitsStay discipline thread token)
    (stores : ∀ token, tolerant token → discipline.StoresStay thread token)
    (depth : Nat) (token : Token) (tolerates : tolerant token) :
    (setup.station interpreter number depth).TasksStay discipline thread token := by
  induction depth generalizing token with
  | zero =>
      exact fun _ => Effect.tolerated_stall (tolerance token tolerates).mild
  | succ depth inductionHypothesis =>
      intro task
      refine Station.carryOut_stays (tolerance token tolerates).mild
        (tolerance token tolerates).tasks (fun context => ?_) task
      exact keeps _ discipline thread token (tolerance token tolerates)
        (inductionHypothesis token tolerates) (inits depth inductionHypothesis token tolerates)
        (stores token tolerates) context

end WorkerMachine
