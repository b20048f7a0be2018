import WorkerMachine.Machine.Runner
import WorkerMachine.Proofs.Clearance.Hosts
import WorkerMachine.Proofs.Truths.Machine
/-!
# Zeros and ones in calls

Whoever calls a unit from registers whose slots of booleans hold zeros and ones makes contexts of the
same kind, and gets results of the same kind back.  Inits begin with no registers at all, and values
that come from outside are stored as zeros and ones.
-/

namespace WorkerMachine

/-- The registers of the first worker of an invocation hold zeros and ones where booleans are, as long
as it has not run. -/
def Invocation.HasTruths (invocation : Invocation) : Prop :=
  ∀ task, invocation.callerTask = some task → task.context.HasTruths

theorem Invocation.abandon_truly {invocation : Invocation} (truths : invocation.HasTruths) :
    invocation.abandon.Keeps Machine.HasTruths fun _ => True := by
  refine Process.Stays.bind (resumeParent_truly invocation.parent) fun _ _ => ?_
  split
  · next task isTask => exact Task.dispose_truly (truths task isTask)
  · exact Process.stays_done trivial

theorem prepareTask_truly {source : RegisterFile} (truths : source.HasTruths) (unit : Callable)
    (worker : Worker) (parent : Context) (arguments : List Nat) (response : ResponseId)
    (inCaller : Bool) :
    (prepareTask unit worker parent source arguments response inCaller).Keeps Machine.HasTruths
      fun task => task.context.HasTruths := by
  unfold prepareTask
  refine Effect.Stays.bind (Effect.stays_ofAccess fun _ seeded => seeded) fun locals seeded => ?_
  refine Effect.Stays.bind (registerContext_truly _ _) fun id _ => ?_
  refine Effect.Stays.bind (tally_truly _) fun _ _ => ?_
  refine Effect.Stays.orElseRun ?_ (Context.release_truly _)
  have moved : (moveContext parent.arena id .runnable).Keeps Machine.HasTruths fun _ => True :=
    Effect.truly_atomically fun _ held => ⟨held.inArena parent.arena _, trivial⟩
  refine Effect.Stays.bind moved fun _ _ => ?_
  refine Effect.Stays.bind (Effect.stays_ofExcept fun _ _ => trivial) fun _ _ => ?_
  exact Effect.stays_pure ⟨Marshalling.seed_hasTruths truths seeded,
    RegisterFile.hasTruths_ofSizes _⟩

namespace Station

variable {station : Station}

/-- Results are delivered as zeros and ones. -/
theorem deliver_truly (invocation : Invocation) (outcome : ResponseOutcome)
    {target : RegisterFile} (truths : target.HasTruths) (indices : List Nat) :
    (deliver invocation outcome target indices).Keeps Machine.HasTruths
      fun answer => answer.2.HasTruths := by
  unfold deliver
  split
  · have delivered : (Process.read fun machine : Machine =>
        (machine.response invocation.response).deliverInto target indices).Keeps Machine.HasTruths
          fun answer => answer.1.HasTruths :=
      Process.stays_read fun machine _ held _ =>
        Response.deliverInto_hasTruths (Machine.HasTruths.response held _) truths indices
    refine Process.Stays.bind delivered fun answer isDelivered => ?_
    obtain ⟨file, copied⟩ := answer
    cases copied with
    | ok _ => exact Process.stays_done isDelivered
    | error overrun => exact Process.stays_done isDelivered
  · exact Process.stays_done truths
  · exact Process.stays_done truths

section Tasks

variable (tasks : station.RunsTruly)

include tasks

theorem scheduleWorkers_truly {source : RegisterFile} (truths : source.HasTruths)
    (unit : Callable) (parent : Context) (arguments : List Nat) (response : ResponseId)
    (workers : List Worker) :
    (station.scheduleWorkers unit parent source arguments response workers).Keeps
      Machine.HasTruths fun _ => True := by
  induction workers with
  | nil =>
      exact Effect.stays_pure trivial
  | cons worker rest inductionHypothesis =>
      unfold scheduleWorkers
      refine Effect.Stays.bind (prepareTask_truly truths _ _ _ _ _ _) fun task taskTruths => ?_
      refine Effect.Stays.bind (tally_truly _) fun _ _ => ?_
      exact Effect.Stays.bind (schedule_truly tasks taskTruths) fun _ _ => inductionHypothesis

theorem dispatch_truly {source : RegisterFile} (truths : source.HasTruths) (unit : Callable)
    (parent : Context) (arguments : List Nat) (waits : Bool) :
    (station.dispatch unit parent source arguments waits).Keeps Machine.HasTruths
      Invocation.HasTruths := by
  have rest : ∀ response : ResponseId,
      (Effect.orElseRun (do
          station.scheduleWorkers unit parent source arguments response unit.scheduledWorkers
          let task ← prepareTask unit unit.callerWorker parent source arguments response true
          return (⟨unit, parent.id, response, some task⟩ : Invocation))
        (resumeParent parent.id)).Keeps Machine.HasTruths Invocation.HasTruths := by
    intro response
    refine Effect.Stays.orElseRun ?_ (resumeParent_truly _)
    refine Effect.Stays.bind (scheduleWorkers_truly tasks truths _ _ _ _ _) fun _ _ => ?_
    refine Effect.Stays.bind (prepareTask_truly truths _ _ _ _ _ _) fun task taskTruths => ?_
    refine Effect.stays_pure fun other isTask => ?_
    cases isTask
    exact taskTruths
  have opened : (Effect.atomically (Machine.openResponse unit.returns waits
      unit.workers.length)).Keeps Machine.HasTruths fun _ => True :=
    Effect.truly_atomically fun _ held => ⟨held.openResponse _ _ _, trivial⟩
  unfold dispatch
  refine Effect.Stays.bind (Effect.stays_ofExcept fun _ _ => trivial) fun _ _ => ?_
  refine Effect.Stays.bind opened fun response _ => ?_
  split
  · have begun : (Effect.atomically (Machine.inArena parent.arena fun records =>
        records.beginWait parent.id)).Keeps Machine.HasTruths fun _ => True :=
      Effect.truly_atomically fun _ held => ⟨held.inArena parent.arena _, trivial⟩
    refine Effect.Stays.bind begun fun waiting _ => ?_
    exact Effect.Stays.bind (Effect.stays_ofExcept fun _ _ => trivial) fun _ _ => rest response
  · exact rest response

theorem settle_truly {invocation : Invocation} (truths : invocation.HasTruths) :
    (station.settle invocation).Keeps Machine.HasTruths fun _ => True := by
  have ran : (station.runFirst invocation).Keeps Machine.HasTruths fun _ => True := by
    unfold runFirst
    split
    · exact Effect.stays_pure trivial
    · next task isTask =>
      refine Effect.Stays.bind (tally_truly _) fun _ _ => ?_
      exact Effect.Stays.bind (runInCaller_truly tasks (truths task isTask)) fun _ _ =>
        Effect.stays_pure trivial
  unfold settle
  refine Effect.Stays.bind ran fun _ _ => ?_
  refine Effect.Stays.bind (park_truly tasks _) fun _ _ => ?_
  refine Effect.Stays.bind (Effect.stays_work (resumeParent_truly _)) fun _ _ => ?_
  exact Effect.truly_read _

theorem join_truly {invocation : Invocation} (truths : invocation.HasTruths)
    {target : RegisterFile} (targetTruths : target.HasTruths) (indices : List Nat) :
    (station.join invocation target indices).Keeps Machine.HasTruths
      fun answer => answer.2.HasTruths := by
  have suspended : (Process.atomically (Machine.inArena Machine.ownArena fun records =>
      records.suspend invocation.parent)).Keeps Machine.HasTruths fun _ => True :=
    Process.truly_atomically fun _ held => ⟨held.inArena Machine.ownArena _, trivial⟩
  have left : Invocation.HasTruths { invocation with callerTask := none } := nofun
  have finish : ∀ {work : Work (Except Interruption Unit × RegisterFile)},
      (work.Keeps Machine.HasTruths fun answer => answer.2.HasTruths) →
        (work.bind fun answer =>
          (Invocation.abandon { invocation with callerTask := none }).bind fun _ =>
            .done answer).Keeps Machine.HasTruths fun answer => answer.2.HasTruths := by
    intro work keeps
    exact Process.Stays.bind keeps fun _ answerTruths =>
      Process.Stays.bind (Invocation.abandon_truly left) fun _ _ => Process.stays_done answerTruths
  unfold join
  refine Process.Stays.bind suspended fun outcome _ => ?_
  cases outcome with
  | error fault =>
      exact Process.Stays.bind (Invocation.abandon_truly truths) fun _ _ =>
        Process.stays_done targetTruths
  | ok _ =>
      refine Process.Stays.bind (settle_truly tasks truths).run fun settled _ => ?_
      cases settled with
      | ok outcome => exact finish (deliver_truly invocation outcome targetTruths indices)
      | error interruption => exact finish (Process.stays_done targetTruths)

/-- A call leaves zeros and ones in the registers of its caller, however it ends. -/
theorem callRegisters_truly {context : Context} (truths : context.HasTruths) (unit : Callable)
    (arguments returns : List Nat) :
    (station.callRegisters unit arguments returns).Keeps Machine.HasTruths context
      (fun _ after => after.HasTruths) Context.HasTruths := by
  have looked : (get : Routine Context).Keeps Machine.HasTruths context
      (fun before after => context = before ∧ context = after) Context.HasTruths :=
    Routine.stays_get ⟨rfl, rfl⟩
  have dispatched : (liftM (station.dispatch unit context context.locals arguments true) :
      Routine Invocation).Keeps Machine.HasTruths context
        (fun invocation after => context = after ∧ invocation.HasTruths) Context.HasTruths :=
    Routine.stays_effect ((dispatch_truly tasks truths.locals unit context arguments true).weaken
      fun _ held => ⟨rfl, held⟩) truths
  unfold callRegisters
  refine Routine.Stays.bind looked fun before after same => ?_
  obtain ⟨rfl, rfl⟩ := same
  refine Routine.Stays.bind dispatched fun invocation after reached => ?_
  obtain ⟨rfl, invocationTruths⟩ := reached
  have joined : (liftM (station.join invocation context.locals returns : Work _) :
      Routine _).Keeps Machine.HasTruths context
        (fun answer last => context = last ∧ answer.2.HasTruths) Context.HasTruths :=
    Routine.stays_work ((join_truly tasks invocationTruths truths.locals returns).weaken
      fun _ held => ⟨rfl, held⟩)
  refine Routine.Stays.bind joined fun answer last reached => ?_
  obtain ⟨rfl, localsTruths⟩ := reached
  obtain ⟨outcome, locals⟩ := answer
  have delivered : Context.HasTruths { context with locals := locals } :=
    ⟨localsTruths, truths.results⟩
  dsimp only
  split
  · exact Routine.stays_set delivered
  · exact ⟨rfl, delivered.locals, delivered.results⟩
  · exact ⟨rfl, delivered⟩

theorem callValues_truly (unit : Callable) (parent : Context) (arguments : List Value) :
    (station.callValues unit parent arguments).Keeps Machine.HasTruths fun _ => True := by
  unfold callValues
  refine Effect.Stays.bind (Effect.stays_ofExcept fun _ _ => trivial) fun _ _ => ?_
  refine Effect.Stays.bind (Effect.stays_mk fun _ lowered => lowered) fun source lowered => ?_
  refine Effect.Stays.bind (dispatch_truly tasks (Marshalling.lower_hasTruths lowered) _ _ _ _)
    fun invocation truths => ?_
  refine Effect.Stays.bind (Effect.stays_work (join_truly tasks truths
    (RegisterFile.hasTruths_ofSizes _) _)) fun answer _ => ?_
  refine Effect.Stays.bind (Effect.stays_mk fun _ _ => trivial) fun _ _ => ?_
  exact Effect.stays_ofAccess fun _ _ => trivial

/-! ## Inits -/

omit tasks in
theorem resolvePending_truly (package : Package) :
    (resolvePending package).Keeps Machine.HasTruths fun _ => True := by
  have taken : (Effect.atomically (Machine.takePending package.name)).Keeps Machine.HasTruths
      fun _ => True :=
    Effect.truly_atomically fun _ held => ⟨held.of_same rfl rfl rfl rfl rfl, trivial⟩
  unfold resolvePending
  refine Effect.Stays.bind taken fun waiting _ => ?_
  refine Effect.Stays.bind (Effect.truly_read _) fun constants _ => ?_
  split
  · next values => exact Effect.truly_modify fun _ held => held.resolveConstants values
  · have restored : (Effect.modify (Machine.restorePending package.name waiting)).Keeps
        Machine.HasTruths fun _ => True :=
      Effect.truly_modify fun _ held => held.of_same rfl rfl rfl rfl rfl
    exact Effect.Stays.bind restored fun _ _ => Effect.stays_fail _

theorem runInit_truly (package : Package) (parent : Context) :
    (station.runInit package parent).Keeps Machine.HasTruths fun _ => True := by
  have opened : parent.openChild.Keeps Machine.HasTruths Context.HasTruths :=
    Effect.Stays.bind (registerContext_truly _ _) fun _ _ =>
      Effect.stays_pure (Context.root_hasTruths _ _ _ _)
  unfold runInit
  split
  · exact resolvePending_truly package
  · next unit _ =>
    refine Effect.Stays.bind (tally_truly _) fun _ _ => ?_
    refine Effect.Stays.bind opened fun context truths => ?_
    refine Effect.Stays.followedBy ?_ context.release_truly
    have noted : (Effect.modify (Machine.callInit package.name
        ⟨context.id, station.thread⟩)).Keeps Machine.HasTruths fun _ => True :=
      Effect.truly_modify fun _ held => held.callInit package.name _
    refine Effect.Stays.bind noted fun _ _ => ?_
    have called : (station.callUnit unit).attempt.Keeps Machine.HasTruths context
        (fun _ => Context.HasTruths) Context.HasTruths :=
      Routine.Stays.attempt (callRegisters_truly tasks truths unit [] [])
    refine Effect.Stays.bind (Effect.stays_work called.run) fun answer _ => ?_
    refine Effect.Stays.bind (Effect.stays_mk fun _ _ => trivial) fun invoked _ => ?_
    refine Effect.Stays.bind (alterGate_truly _) fun _ _ => ?_
    refine Effect.Stays.bind (Effect.stays_ofExcept fun _ _ => trivial) fun _ _ => ?_
    exact resolvePending_truly package

omit tasks in
theorem advancePhases_truly (station : Station) (package : String) (caller : ContextId)
    (bound : Nat) (phase : GatePhase) :
    (station.advancePhases package caller bound phase).Keeps Machine.HasTruths
      fun _ => True := by
  induction bound generalizing phase with
  | zero => exact Process.stays_done trivial
  | succ bound inductionHypothesis =>
      cases answered : phase.answer? with
      | some answer =>
          cases phase <;> cases answered
          exact Process.stays_done trivial
      | none =>
          rw [advancePhases_succ station package caller bound answered]
          intro machine _ truths _
          exact ⟨fun _ => ⟨trivial, (), Machine.HasTruths.of_same truths rfl rfl rfl rfl rfl,
            inductionHypothesis _⟩, fun _ => trivial⟩

theorem ensureInitialized_truly (package : Package) (caller : Context) :
    (station.ensureInitialized package caller).Keeps Machine.HasTruths fun _ => True := by
  have passed : (station.passGate package.name caller.id).Keeps Machine.HasTruths fun _ => True :=
    Process.Stays.bind (advancePhases_truly _ _ _ _ _) fun _ _ => advancePhases_truly _ _ _ _ _
  have givenBack : (Process.modify fun machine : Machine =>
      { machine with gate := machine.gate.setCell package.name .untouched }).Keeps
        Machine.HasTruths fun _ => True :=
    Process.truly_modify fun _ held => held.of_same rfl rfl rfl rfl rfl
  unfold ensureInitialized
  refine Effect.Stays.bind (Effect.stays_work passed) fun phase _ => ?_
  split
  · exact Effect.stays_throw _
  · exact Effect.stays_ofExcept fun _ _ => trivial
  · have attempted : (station.runInit package caller).attempt.Keeps Machine.HasTruths
        fun _ => True :=
      Effect.Stays.attempt (runInit_truly tasks package caller)
    refine Effect.Stays.bind (Effect.Stays.orElseRun attempted givenBack) fun outcome _ => ?_
    refine Effect.Stays.bind (alterGate_truly _) fun _ _ => ?_
    refine Effect.Stays.bind (alterGate_truly _) fun _ _ => ?_
    exact Effect.stays_ofExcept fun _ _ => trivial

/-! ## Calls by name -/

theorem callNamed_truly (package function : String) (arguments : List Value) :
    (station.callNamed package function arguments).Keeps Machine.HasTruths fun _ => True := by
  have opened : (openRoot Machine.ownArena Machine.ownProperties).Keeps Machine.HasTruths
      fun _ => True :=
    Effect.Stays.bind (registerContext_truly _ _) fun _ _ => Effect.stays_pure trivial
  unfold callNamed
  refine Effect.Stays.bind opened fun root _ => ?_
  refine Effect.Stays.followedBy ?_ root.release_truly
  unfold callNamedIn
  refine Effect.Stays.bind (Effect.stays_ofExcept fun _ _ => trivial) fun found _ => ?_
  refine Effect.Stays.bind (Effect.stays_ofExcept fun _ _ => trivial) fun unit _ => ?_
  refine Effect.Stays.bind (Effect.stays_ofExcept fun _ _ => trivial) fun _ _ => ?_
  refine Effect.Stays.bind (ensureInitialized_truly tasks found root) fun _ _ => ?_
  exact callValues_truly tasks unit root arguments

theorem CallsByName.truly {Answer : Type} {process : Work Answer}
    (calls : station.CallsByName process) :
    process.Keeps Machine.HasTruths fun _ => True := by
  induction calls with
  | ended answer =>
      exact Process.stays_done trivial
  | called package function arguments _ inductionHypothesis =>
      exact Process.Stays.bind (callNamed_truly tasks package function arguments).run
        fun outcome _ => inductionHypothesis outcome

end Tasks

/-! ## Tasks -/

/-- A task keeps zeros and ones all over the machine if the body of its worker does so. -/
theorem carryOut_truly {interpreter : Interpreter}
    (bodies : ∀ context : Context, context.HasTruths → (interpreter station).Keeps
      Machine.HasTruths context (fun _ after => after.HasTruths) Context.HasTruths)
    {task : Task} (truths : task.context.HasTruths) :
    (station.carryOut interpreter task).Keeps Machine.HasTruths fun _ => True := by
  have starts : (Effect.atomically (Machine.startTask task)).Keeps Machine.HasTruths
      fun _ => True :=
    Effect.truly_atomically fun _ held => ⟨held.startTask truths, trivial⟩
  unfold carryOut
  refine Effect.Stays.followedBy ?_ task.context.release_truly
  refine Effect.Stays.bind starts fun started _ => ?_
  cases started with
  | error fault =>
      exact Effect.Stays.bind (contributeTo_truly _ _ _ truths.results) fun _ _ =>
        Effect.stays_pure trivial
  | ok state =>
      have run : (liftM ((interpreter station).runOn task.context : Work _) :
          Effect _).Keeps Machine.HasTruths fun answer => answer.2.HasTruths :=
        Effect.stays_work (Routine.Stays.run (bodies task.context truths))
      refine Effect.Stays.bind run fun answer answerTruths => ?_
      have finished : (Effect.modify (Machine.alterArena answer.2.arena fun records =>
          records.finish answer.2.id (judge answer.2 answer.1).lastState)).Keeps
            Machine.HasTruths fun _ => True :=
        Effect.truly_modify fun _ held => held.of_same rfl rfl rfl rfl rfl
      refine Effect.Stays.bind finished fun _ _ => ?_
      have ends : (Effect.atomically (Machine.endTask task answer.1 answer.2)).Keeps
          Machine.HasTruths fun _ => True :=
        Effect.truly_atomically fun _ held =>
          ⟨held.endTask truths answerTruths answer.1, trivial⟩
      refine Effect.Stays.bind ends fun _ _ => ?_
      exact Effect.Stays.bind (Effect.stays_ofAccess fun _ _ => trivial) fun _ _ =>
        Effect.stays_pure trivial

end Station

end WorkerMachine
