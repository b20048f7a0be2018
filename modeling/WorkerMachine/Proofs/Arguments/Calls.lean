import WorkerMachine.Proofs.Arguments.Steps
import WorkerMachine.Proofs.Registers.Lowering
/-!
# Calls and faults about arguments

A call from registers copies slots from bank to bank, so nothing can be of the wrong kind there; that
goes for the calls of scripts and for those of init units.  A call with values comes to the fault of an
argument of the wrong kind only if the arguments cannot be lowered.
-/

namespace WorkerMachine

theorem Invocation.abandon_matched (invocation : Invocation) :
    invocation.abandon.Keeps Machine.Matched fun _ => True := by
  refine Process.Stays.bind (resumeParent_matched invocation.parent) fun _ _ => ?_
  split
  · exact Task.dispose_matched _
  · exact Process.stays_done trivial

theorem prepareTask_matches (unit : Callable) (worker : Worker) (parent : Context)
    (source : RegisterFile) (arguments : List Nat) (response : ResponseId) (inCaller : Bool) :
    (prepareTask unit worker parent source arguments response inCaller).Matches fun _ => True := by
  unfold prepareTask
  refine (Effect.matches_ofAccess _).bind fun locals _ => ?_
  refine (registerContext_matches _ _).bind fun id _ => ?_
  refine (tally_matches _).bind fun _ _ => ?_
  refine Effect.Matches.orElseRun ?_ (Context.release_matched _)
  refine (moveContext_matches _ _ _).bind fun moved matched => ?_
  refine (Effect.matches_ofExcept matched fun _ _ => trivial).bind fun _ _ => ?_
  exact Effect.matches_pure trivial

/-- Looking for a unit and counting arguments comes to other faults only. -/
theorem Effect.matches_found {Answer : Type} {outcome : Except Fault Answer}
    (matched : Matched outcome) :
    (Effect.ofExcept outcome).Matches fun answer => outcome = .ok answer :=
  Effect.matches_ofExcept matched fun _ isOk => isOk

namespace Station

variable {station : Station}

/-- What is delivered is what the workers have come to. -/
theorem deliver_matched (invocation : Invocation) {outcome : ResponseOutcome}
    (matched : ∀ fault, outcome = .fault fault → fault.isMismatch = false) (target : RegisterFile)
    (indices : List Nat) :
    (deliver invocation outcome target indices).Keeps Machine.Matched
      fun answer => EndsMatched answer.1 := by
  unfold deliver
  split
  · have copied : (Process.read fun machine : Machine =>
        (machine.response invocation.response).deliverInto target indices).Keeps Machine.Matched
          fun _ => True :=
      Process.stays_read fun _ _ _ _ => trivial
    refine Process.Stays.bind copied fun answer _ => ?_
    obtain ⟨delivered, _ | _⟩ := answer
    · refine Process.stays_done fun interruption same => ?_
      cases same
      exact Interruption.matched_panic _
    · exact Process.stays_done nofun
  · refine Process.stays_done fun interruption same => ?_
    cases same
    exact Interruption.matched_fault rfl
  · next fault =>
    refine Process.stays_done fun interruption same => ?_
    cases same
    exact Interruption.matched_fault (matched fault rfl)

section Tasks

variable (tasks : station.RunsMatched)

include tasks

theorem scheduleWorkers_matches (unit : Callable) (parent : Context) (source : RegisterFile)
    (arguments : List Nat) (response : ResponseId) (workers : List Worker) :
    (station.scheduleWorkers unit parent source arguments response workers).Matches
      fun _ => True := by
  induction workers with
  | nil => exact Effect.matches_pure trivial
  | cons worker rest inductionHypothesis =>
      unfold scheduleWorkers
      refine (prepareTask_matches _ _ _ _ _ _ _).bind fun task _ => ?_
      refine (tally_matches _).bind fun _ _ => ?_
      exact (schedule_matches tasks task).bind fun _ _ => inductionHypothesis

theorem dispatch_matches (unit : Callable) (parent : Context) (source : RegisterFile)
    (arguments : List Nat) (waits : Bool) :
    (station.dispatch unit parent source arguments waits).Matches fun _ => True := by
  have opened : (Effect.atomically (Machine.openResponse unit.returns waits
      unit.workers.length)).Matches fun _ => True :=
    Effect.matches_alter fun _ matched => matched.openResponse _ _ _
  have begun : (Effect.atomically (Machine.inArena parent.arena fun records =>
      records.beginWait parent.id)).Matches Matched :=
    Effect.matches_atomically fun _ matched =>
      ⟨matched.of_same rfl rfl, Arena.matched_beginWait _ _⟩
  have handedOut : ∀ response : ResponseId,
      (Effect.orElseRun (do
          station.scheduleWorkers unit parent source arguments response unit.scheduledWorkers
          let task ← prepareTask unit unit.callerWorker parent source arguments response true
          return (⟨unit, parent.id, response, some task⟩ : Invocation))
        (resumeParent parent.id)).Matches fun _ => True := by
    intro response
    refine Effect.Matches.orElseRun ?_ (resumeParent_matched _)
    refine (scheduleWorkers_matches tasks _ _ _ _ _ _).bind fun _ _ => ?_
    exact (prepareTask_matches _ _ _ _ _ _ _).bind fun _ _ => Effect.matches_pure trivial
  unfold dispatch
  refine (Effect.matches_found (unit.matched_checkArity _)).bind fun _ _ => ?_
  refine opened.bind fun response _ => ?_
  split
  · refine begun.bind fun waiting matched => ?_
    exact (Effect.matches_found matched).bind fun _ _ => handedOut response
  · exact handedOut response

theorem settle_matches (invocation : Invocation) :
    (station.settle invocation).Matches fun outcome =>
      ∀ fault, outcome = .fault fault → fault.isMismatch = false := by
  have ran : (station.runFirst invocation).Matches fun _ => True := by
    unfold runFirst
    split
    · exact Effect.matches_pure trivial
    · next task _ =>
      refine (tally_matches _).bind fun _ _ => ?_
      exact (runInCaller_matches tasks task).bind fun _ _ => Effect.matches_pure trivial
  unfold settle
  refine ran.bind fun _ _ => ?_
  refine (park_matches tasks _).bind fun _ _ => ?_
  refine (Effect.matches_work (resumeParent_matched _)).bind fun _ _ => ?_
  refine Effect.matches_read fun machine matched fault isFault => ?_
  refine matched.response invocation.response fault ?_
  unfold Response.outcome at isFault
  split at isFault
  · next isHeld =>
    cases isFault
    exact isHeld
  · cases isFault
  · cases isFault

theorem join_matched (invocation : Invocation) (target : RegisterFile) (indices : List Nat) :
    (station.join invocation target indices).Keeps Machine.Matched
      fun answer => EndsMatched answer.1 := by
  have suspended : (Process.atomically (Machine.inArena Machine.ownArena fun records =>
      records.suspend invocation.parent)).Keeps Machine.Matched Matched :=
    Process.matched_atomically fun _ matched =>
      ⟨matched.of_same rfl rfl, Arena.matched_suspend _ _⟩
  have finish : ∀ {work : Work (Except Interruption Unit × RegisterFile)},
      (work.Keeps Machine.Matched fun answer => EndsMatched answer.1) →
        (work.bind fun answer =>
          (Invocation.abandon { invocation with callerTask := none }).bind fun _ =>
            .done answer).Keeps Machine.Matched fun answer => EndsMatched answer.1 := by
    intro work keeps
    exact Process.Stays.bind keeps fun _ matched =>
      Process.Stays.bind (Invocation.abandon_matched _) fun _ _ => Process.stays_done matched
  unfold join
  refine Process.Stays.bind suspended fun outcome matched => ?_
  cases outcome with
  | error fault =>
      refine Process.Stays.bind (Invocation.abandon_matched _) fun _ _ => ?_
      refine Process.stays_done fun interruption same => ?_
      cases same
      exact Interruption.matched_fault (matched fault rfl)
  | ok _ =>
      refine Process.Stays.bind (settle_matches tasks invocation).run fun settled reached => ?_
      cases settled with
      | ok outcome =>
          exact finish (deliver_matched invocation (reached.2 outcome rfl) target indices)
      | error interruption =>
          refine finish (Process.stays_done fun other same => ?_)
          cases same
          exact reached.1 interruption rfl

/-- A call from registers comes to no fault about the kinds of arguments. -/
theorem callRegisters_matches (unit : Callable) (arguments returns : List Nat) :
    (station.callRegisters unit arguments returns).Matches := by
  unfold callRegisters
  refine Routine.matches_get.bind fun context => ?_
  refine Routine.Matches.of_effect (dispatch_matches tasks _ _ _ _ _) fun invocation _ => ?_
  refine Routine.Matches.of_work (join_matched tasks _ _ _) fun answer matched => ?_
  obtain ⟨outcome, locals⟩ := answer
  dsimp only
  split
  · exact Routine.matches_set _
  · exact (Routine.matches_set _).bind fun _ =>
      Routine.matches_throw (Interruption.matched_fault rfl)
  · next interruption _ =>
    exact (Routine.matches_set _).bind fun _ =>
      Routine.matches_throw (matched interruption rfl)

/-- A call with values comes to the fault of an argument of the wrong kind only if it cannot be
lowered. -/
theorem callValues_matches {unit : Callable} {arguments : List Value}
    (lowered : EndsMatched (Marshalling.lower unit.params arguments)) (parent : Context) :
    (station.callValues unit parent arguments).Matches fun _ => True := by
  unfold callValues
  refine (Effect.matches_found (unit.matched_checkArity _)).bind fun _ _ => ?_
  refine Effect.Matches.bind (Effect.matches_mk lowered fun _ isOk => isOk) fun source _ => ?_
  refine (dispatch_matches tasks _ _ _ _ _).bind fun invocation _ => ?_
  refine (Effect.matches_work (join_matched tasks _ _ _)).bind fun answer matched => ?_
  refine Effect.Matches.bind (Effect.matches_mk matched fun _ isOk => isOk) fun _ _ => ?_
  exact Effect.matches_ofAccess _

end Tasks

/-! ## Inits -/

theorem resolvePending_matches (package : Package) :
    (resolvePending package).Matches fun _ => True := by
  have taken : (Effect.atomically (Machine.takePending package.name)).Matches fun _ => True :=
    Effect.matches_alter fun _ matched => matched.of_same rfl rfl
  have looked : ∀ waiting, (Effect.read fun machine : Machine =>
      readConstants package machine.globals waiting).Matches Matched :=
    fun waiting => Effect.matches_read fun machine _ =>
      matched_readConstants package machine.globals waiting
  unfold resolvePending
  refine taken.bind fun waiting _ => ?_
  refine (looked waiting).bind fun outcome matched => ?_
  split
  · next values => exact Effect.matches_modify fun _ held => held.resolveConstants values
  · next fault =>
    have restored : (Effect.modify (Machine.restorePending package.name waiting)).Matches
        fun _ => True :=
      Effect.matches_modify fun _ held => held.of_same rfl rfl
    exact restored.bind fun _ _ =>
      Effect.matches_throw (Interruption.matched_fault (matched fault rfl))

/-- What the cells of the gate hold is left alone. -/
theorem alterGate_matches {change : Gate → Gate} (spared : ∀ gate, (change gate).cells = gate.cells) :
    (alterGate change).Matches fun _ => True :=
  Effect.matches_modify fun _ matched =>
    ⟨matched.responses, matched.gate.of_cells (spared _)⟩

theorem openChild_matches (parent : Context) : parent.openChild.Matches fun _ => True :=
  (registerContext_matches _ _).bind fun _ _ => Effect.matches_pure trivial

theorem runInit_matches (tasks : station.RunsMatched) (package : Package) (parent : Context) :
    (station.runInit package parent).Matches fun _ => True := by
  unfold runInit
  split
  · exact resolvePending_matches package
  · next unit _ =>
    refine (tally_matches _).bind fun _ _ => ?_
    refine (openChild_matches parent).bind fun context _ => ?_
    refine Effect.Matches.followedBy ?_ context.release_matched
    have noted : (Effect.modify (Machine.callInit package.name
        ⟨context.id, station.thread⟩)).Matches fun _ => True :=
      Effect.matches_modify fun _ matched => ⟨matched.responses, matched.gate⟩
    refine noted.bind fun _ _ => ?_
    have called : (station.callUnit unit).Matches := callRegisters_matches tasks unit [] []
    refine (Effect.matches_work (called.run_attempt context)).bind fun answer matched => ?_
    refine Effect.Matches.bind (Effect.matches_mk matched fun _ isOk => isOk) fun invoked _ => ?_
    refine Effect.Matches.bind (alterGate_matches fun _ => rfl) fun _ _ => ?_
    refine (Effect.matches_found (matched_initOutcome _ _ _ _)).bind fun _ _ => ?_
    exact resolvePending_matches package

end Station

/-! ## The gate -/

namespace Station

variable {station : Station}

theorem advancePhases_matched (package : String) (caller : ContextId) (bound : Nat)
    {phase : GatePhase} (matched : phase.Matched) :
    (station.advancePhases package caller bound phase).Keeps Machine.Matched
      GatePhase.Matched := by
  induction bound generalizing phase with
  | zero => exact Process.stays_done matched
  | succ bound inductionHypothesis =>
      cases answered : phase.answer? with
      | some answer =>
          cases phase <;> cases answered
          exact Process.stays_done matched
      | none =>
          rw [advancePhases_succ station package caller bound answered]
          intro machine _ holds _
          have held : machine.Matched := holds
          obtain ⟨phaseMatched, gateMatched⟩ := held.gate.advance station.thread package
            (fun context => ((machine.arena Machine.ownArena).ancestry caller).contains context)
            matched
          exact ⟨fun _ => ⟨trivial, (), ⟨held.responses, gateMatched⟩,
            inductionHypothesis phaseMatched⟩, fun _ => trivial⟩

/-- Whoever passes a gate comes to no fault about the kinds of arguments. -/
theorem ensureInitialized_matches (tasks : station.RunsMatched) (package : Package)
    (caller : Context) : (station.ensureInitialized package caller).Matches fun _ => True := by
  have passed : (station.passGate package.name caller.id).Keeps Machine.Matched
      GatePhase.Matched :=
    Process.Stays.bind (advancePhases_matched _ _ _ trivial) fun _ matched =>
      advancePhases_matched _ _ _ matched
  have givenBack : (Process.modify fun machine : Machine =>
      { machine with gate := machine.gate.setCell package.name .untouched }).Keeps
        Machine.Matched fun _ => True :=
    Process.matched_modify fun _ held => ⟨held.responses, held.gate.setCell package.name nofun⟩
  unfold ensureInitialized
  refine (Effect.matches_work passed).bind fun phase matched => ?_
  split
  · exact Effect.matches_throw Interruption.matched_exhausted
  · next outcome isAnswer =>
    cases phase <;> cases isAnswer
    exact Effect.matches_ofExcept matched fun _ _ => trivial
  · have attempted := (runInit_matches tasks package caller).attempt.orElseRun givenBack
    refine attempted.bind fun outcome matched => ?_
    have settled : (alterGate fun gate => gate.setCell package.name (.settled outcome)).Matches
        fun _ => True := by
      refine Effect.matches_modify fun _ held =>
        ⟨held.responses, held.gate.setCell package.name fun other same => ?_⟩
      cases same
      exact matched
    refine settled.bind fun _ _ => ?_
    refine Effect.Matches.bind (alterGate_matches fun _ => rfl) fun _ _ => ?_
    exact Effect.matches_ofExcept matched fun _ _ => trivial

/-! ## Calls by name -/

section Named

variable (tasks : station.RunsMatched) {package function : String} {arguments : List Value}
  (lowered : ∀ found unit, station.program.package package = .ok found →
    Program.function found package function = .ok unit →
    EndsMatched (Marshalling.lower unit.params arguments))

include tasks lowered

theorem callNamedIn_matches (parent : Context) :
    (station.callNamedIn parent package function arguments).Matches fun _ => True := by
  unfold callNamedIn
  refine (Effect.matches_found (station.program.matched_package package)).bind
    fun found isPackage => ?_
  refine (Effect.matches_found (Program.matched_function found package function)).bind
    fun unit isFunction => ?_
  refine (Effect.matches_found (unit.matched_checkArity _)).bind fun _ _ => ?_
  refine (ensureInitialized_matches tasks found parent).bind fun _ _ => ?_
  exact callValues_matches tasks (lowered found unit isPackage isFunction) parent

theorem callNamed_matches : (station.callNamed package function arguments).Matches
    fun _ => True := by
  have opened : (openRoot Machine.ownArena Machine.ownProperties).Matches fun _ => True :=
    (registerContext_matches _ _).bind fun _ _ => Effect.matches_pure trivial
  unfold callNamed
  refine opened.bind fun root _ => ?_
  exact (callNamedIn_matches tasks lowered root).followedBy root.release_matched

end Named

end Station

end WorkerMachine
