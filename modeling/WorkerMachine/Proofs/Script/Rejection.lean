import WorkerMachine.Proofs.Machine.Surroundings
import WorkerMachine.Proofs.Registers.Seeding
import WorkerMachine.Script.Interpreter
/-!
# Calls of scripts that cannot be made

The operands of a call are the only ones that are not checked before a program runs.  They are
checked along the way: the number of results by the instruction itself, the number of arguments when
the workers are dispatched, and the slots of the arguments when the registers of the first worker
are filled.  In between the call passes the gate of the package.
-/

namespace WorkerMachine

/-- A routine that fails before it takes a step, so that it touches neither the machine nor its
context. -/
def Routine.FailsAtOnce {Answer : Type} (routine : Routine Answer) (context : Context)
    (fault : Fault) : Prop :=
  routine.runOn context = .done (.error (.fault fault), context)

/-- What is left alone by a call that comes to nothing: global memory, the gate, what has happened to
workers and inits, and the numbers of workers and inits. -/
structure Machine.SameEssentials (before after : Machine) : Prop where
  globals : after.globals = before.globals
  gate : after.gate = before.gate
  history : after.history = before.history
  contexts : after.tallies.contexts = before.tallies.contexts
  scheduled : after.tallies.scheduled = before.tallies.scheduled
  inCaller : after.tallies.inCaller = before.tallies.inCaller
  inits : after.tallies.inits = before.tallies.inits

/-- The init of a package has ended with an outcome, and nobody runs it again. -/
def Machine.Settled (package : String) (outcome : Except Fault Unit) (machine : Machine) : Prop :=
  machine.gate.marks.get? package = none ∧ machine.gate.outcome? package = some outcome

/-- The discipline of those who find a property of the state whenever they look, never wait, and make
no changes but of one kind. -/
def Discipline.limitedTo {State : Type} (held : State → Prop) (change : State → State → Prop)
    (refl : ∀ state, change state state) : Discipline Unit State Unit where
  fits := fun state _ => held state
  permits := change
  excuses := fun _ _ _ => False
  permits_refl := refl

theorem Machine.SameEssentials.refl (machine : Machine) : machine.SameEssentials machine :=
  ⟨rfl, rfl, rfl, rfl, rfl, rfl, rfl⟩

theorem Machine.SameEssentials.settled {before after : Machine} (spares : before.SameEssentials after)
    {package : String} {outcome : Except Fault Unit} (settled : before.Settled package outcome) :
    after.Settled package outcome := by
  unfold Settled
  rw [spares.gate]
  exact settled

/-! ## A gate that is open or shut for good -/

/-- A package whose init has ended has a cell. -/
theorem Gate.contains_of_outcome? {gate : Gate} {package : String} {outcome : Except Fault Unit}
    (settled : gate.outcome? package = some outcome) : gate.cells.contains package = true := by
  unfold outcome? at settled
  unfold Table.contains
  cases found : gate.cells.get? package with
  | none =>
      rw [found] at settled
      cases settled
  | some cell =>
      rfl

namespace Station

variable {station : Station} {package : String} {outcome : Except Fault Unit}
  {change : Machine → Machine → Prop} {refl : ∀ machine, change machine machine}

theorem advancePhases_settled {caller : ContextId} {next : GatePhase} {bound : Nat}
    {goal : GatePhase → Unit → Prop} (phase : GatePhase) (unanswered : phase.answer? = none)
    (looks : ∀ (machine : Machine) (descends : ContextId → Bool), machine.Settled package outcome →
      machine.gate.ready package phase = true ∧
        machine.gate.advance station.thread package descends phase = (next, machine.gate))
    (rest : (station.advancePhases package caller bound next).Follows
      (.limitedTo (Machine.Settled package outcome) change refl) () () goal) :
    (station.advancePhases package caller (bound + 1) phase).Follows
      (.limitedTo (Machine.Settled package outcome) change refl) () () goal := by
  rw [advancePhases_succ station package caller bound unanswered]
  intro machine hands settled _
  obtain ⟨isReady, advances⟩ := looks machine
    (fun context => ((machine.arena Machine.ownArena).ancestry caller).contains context) settled
  dsimp only
  rw [isReady, advances]
  exact ⟨fun _ => ⟨refl machine, (), settled, rest⟩, fun never => by cases never⟩

/-- The gate of a package whose init has ended answers with the outcome, and is only looked at. -/
theorem passGate_settled (caller : ContextId) :
    (station.passGate package caller).Follows
      (.limitedTo (Machine.Settled package outcome) change refl) () ()
      fun phase _ => phase = .answered (.outcome outcome) := by
  have answered : (station.advancePhases package caller 3 (.answered (.outcome outcome))).Follows
      (.limitedTo (Machine.Settled package outcome) change refl) () ()
      fun phase _ => phase = .answered (.outcome outcome) := by
    rw [advancePhases_answered]
    exact Process.follows_done rfl
  have looked := advancePhases_settled .lookForOutcome rfl
    (fun machine descends settled => ⟨rfl, by rw [Gate.advance, settled.2]⟩) answered
  have opened := advancePhases_settled .openCell rfl
    (fun machine descends settled => ⟨rfl, by
      rw [Gate.advance, if_pos (Gate.contains_of_outcome? settled.2)]⟩) looked
  have counted := advancePhases_settled .lookForMark rfl
    (fun machine descends settled => ⟨rfl, by rw [Gate.advance, settled.1]⟩) opened
  refine Process.Follows.bind counted ?_
  rintro phase ⟨⟩ rfl
  rw [advancePhases_answered]
  exact rfl

/-- A call at the gate of a package whose init has ended ends with the outcome. -/
theorem ensureInitialized_settled {found : Package} (caller : Context) :
    (station.ensureInitialized found caller).Follows
      (.limitedTo (Machine.Settled found.name outcome) change refl) () ()
      (fun _ _ => outcome = .ok ())
      fun interruption _ => ∃ fault, outcome = .error fault ∧ interruption = .fault fault := by
  unfold ensureInitialized
  refine Effect.Follows.bind (Effect.follows_work (passGate_settled caller.id)) ?_
  rintro phase ⟨⟩ rfl
  refine Effect.follows_ofExcept ?_ ?_
  · intro answer isOk
    exact isOk
  · intro fault isError
    exact ⟨fault, isError, rfl⟩

theorem exists_step_of_ensureInitialized (station : Station) (found : Package) (caller : Context) :
    ∃ ready update next, (station.ensureInitialized found caller).run = .step ready update next :=
  ⟨_, _, _, rfl⟩

end Station

/-! ## Workers whose arguments do not exist -/

/-- Why a call ends whose arguments do not exist: an access past the end of a bank, unless the context
that calls may not wait. -/
def Context.CannotCall (context : Context) (interruption : Interruption) : Prop :=
  (∃ overrun : Overrun, interruption = overrun.interruption) ∨
    ∃ state, interruption = .fault (.invalidTransition context.id state .waiting)

theorem prepareTask_eq_throw {unit : Callable} {worker : Worker} {source : RegisterFile}
    {arguments : List Nat} {overrun : Overrun}
    (failed : Marshalling.seed worker.locals unit.params source arguments = .error overrun)
    (parent : Context) (response : ResponseId) (inCaller : Bool) :
    prepareTask unit worker parent source arguments response inCaller =
      throw overrun.interruption := by
  unfold prepareTask
  rw [failed]
  rfl

theorem Arena.fault_of_transition {arena : Arena} {id : ContextId} {next : ContextState}
    {fault : Fault} (refused : (arena.transition id next).1 = .error fault) :
    ∃ state, fault = .invalidTransition id state next := by
  unfold transition at refused
  split at refused
  · cases refused
    exact ⟨none, rfl⟩
  · next record _ =>
    split at refused
    · cases refused
    · cases refused
      exact ⟨some record.state, rfl⟩

theorem Arena.fault_of_beginWait {arena : Arena} {id : ContextId} {fault : Fault}
    (refused : (arena.beginWait id).1 = .error fault) :
    ∃ state, fault = .invalidTransition id state .waiting := by
  unfold beginWait at refused
  split at refused
  · cases refused
  · cases isMoved : arena.transition id .waiting with
    | mk moved after =>
        have sameFault : moved.map (fun _ => ()) = .error fault := by
          rw [isMoved] at refused
          exact refused
        cases moved with
        | error other =>
            cases sameFault
            exact fault_of_transition (congrArg Prod.fst isMoved)
        | ok before =>
            cases sameFault

namespace Station

variable {station : Station} {held : Machine → Prop}

theorem dispatch_follows_of_unreadable
    (closed : ∀ before after, Machine.SameEssentials before after → held before → held after)
    {unit : Callable} {parent : Context} {source : RegisterFile} {arguments : List Nat}
    (arity : unit.checkArity arguments.length = .ok ())
    (unreadable : ∀ locals, ∃ overrun, Marshalling.seed locals unit.params source arguments =
      .error overrun) :
    (station.dispatch unit parent source arguments true).Follows
      (.limitedTo held Machine.SameEssentials .refl) () () (fun _ _ => False)
      fun interruption _ => parent.CannotCall interruption := by
  have changes {Answer : Type} (operation : Machine → Answer × Machine)
      (spares : ∀ machine, machine.SameEssentials (operation machine).2) :
      (Effect.atomically operation).Follows (.limitedTo held Machine.SameEssentials .refl) () ()
        (fun answer _ => ∃ machine, (operation machine).1 = answer)
        fun interruption _ => parent.CannotCall interruption :=
    Effect.follows_atomically fun machine _ holds _ =>
      ⟨spares machine, (), closed machine _ (spares machine) holds, machine, rfl⟩
  have resumed : (resumeParent parent.id).Follows (.limitedTo held Machine.SameEssentials .refl) () ()
      fun _ _ => True :=
    Process.follows_modify fun machine _ holds _ =>
      ⟨⟨rfl, rfl, rfl, rfl, rfl, rfl, rfl⟩, (),
        closed machine _ ⟨rfl, rfl, rfl, rfl, rfl, rfl, rfl⟩ holds, trivial⟩
  have unseeded (worker : Worker) (response : ResponseId) (inCaller : Bool) :
      (prepareTask unit worker parent source arguments response inCaller).Follows
        (.limitedTo held Machine.SameEssentials .refl) () () (fun _ _ => False)
        fun interruption _ => parent.CannotCall interruption := by
    obtain ⟨overrun, failed⟩ := unreadable worker.locals
    rw [prepareTask_eq_throw failed]
    exact Effect.follows_throw (.inl ⟨overrun, rfl⟩)
  have never : ∀ response : ResponseId, (do
      station.scheduleWorkers unit parent source arguments response unit.scheduledWorkers
      let task ← prepareTask unit unit.callerWorker parent source arguments response true
      return (⟨unit, parent.id, response, some task⟩ : Invocation) : Effect Invocation).Follows
        (.limitedTo held Machine.SameEssentials .refl) () () (fun _ _ => False)
        fun interruption _ => parent.CannotCall interruption := by
    intro response
    have scheduled : (station.scheduleWorkers unit parent source arguments response
        unit.scheduledWorkers).Follows (.limitedTo held Machine.SameEssentials .refl) () ()
          (fun _ _ => True) fun interruption _ => parent.CannotCall interruption := by
      cases unit.scheduledWorkers with
      | nil =>
          exact Effect.follows_pure trivial
      | cons worker rest =>
          exact (unseeded worker response false).bind fun _ _ none => none.elim
    exact scheduled.bind fun _ _ _ => (unseeded _ response true).bind fun _ _ none => none.elim
  have checked : (Effect.ofExcept (unit.checkArity arguments.length)).Follows
      (.limitedTo held Machine.SameEssentials .refl) () () (fun _ _ => True)
      fun interruption _ => parent.CannotCall interruption := by
    rw [arity]
    exact Effect.follows_pure trivial
  refine checked.bind fun _ _ _ => ?_
  refine Effect.Follows.bind (changes _ fun _ => ⟨rfl, rfl, rfl, rfl, rfl, rfl, rfl⟩)
    fun response _ _ => ?_
  refine Effect.Follows.bind (changes _ fun _ => ⟨rfl, rfl, rfl, rfl, rfl, rfl, rfl⟩) ?_
  rintro waiting _ ⟨machine, answers⟩
  have waits : (Effect.ofExcept waiting).Follows (.limitedTo held Machine.SameEssentials .refl) () ()
      (fun _ _ => True) fun interruption _ => parent.CannotCall interruption := by
    refine Effect.follows_ofExcept (fun _ _ => trivial) fun fault refused => ?_
    rw [← answers] at refused
    obtain ⟨state, isFault⟩ := Arena.fault_of_beginWait refused
    exact .inr ⟨state, congrArg Interruption.fault isFault⟩
  refine waits.bind fun _ _ _ => ?_
  refine (never response).orElseRun fun interruption _ cannot => ?_
  exact resumed.weaken fun _ _ _ => cannot

theorem callRegisters_follows_of_unreadable
    (closed : ∀ before after, Machine.SameEssentials before after → held before → held after)
    {unit : Callable} {context : Context} {arguments : List Nat} (returns : List Nat)
    (arity : unit.checkArity arguments.length = .ok ())
    (unreadable : ∀ locals, ∃ overrun,
      Marshalling.seed locals unit.params context.locals arguments = .error overrun) :
    (station.callRegisters unit arguments returns).Follows
      (.limitedTo held Machine.SameEssentials .refl) () context () (fun _ _ _ => False)
      fun interruption after _ => after = context ∧ context.CannotCall interruption := by
  have dispatched : (station.dispatch unit context context.locals arguments true).Follows
      (.limitedTo held Machine.SameEssentials .refl) () () (fun _ _ => False)
      fun interruption _ => context.CannotCall interruption :=
    dispatch_follows_of_unreadable closed arity unreadable
  have never : (liftM (station.dispatch unit context context.locals arguments true) :
      Routine Invocation).Follows (.limitedTo held Machine.SameEssentials .refl) () context ()
        (fun _ _ _ => False)
        fun interruption after _ => after = context ∧ context.CannotCall interruption :=
    Routine.follows_effect (dispatched.weaken (fun _ _ none => none) fun _ _ cannot => ⟨rfl, cannot⟩)
  have looked : (get : Routine Context).Follows (.limitedTo held Machine.SameEssentials .refl) () context
      () (fun answer after _ => answer = context ∧ after = context)
      fun interruption after _ => after = context ∧ context.CannotCall interruption :=
    Routine.follows_get ⟨rfl, rfl⟩
  refine looked.bind ?_
  rintro _ _ _ ⟨rfl, rfl⟩
  exact never.bind fun _ _ _ none => none.elim

theorem runOn_callRegisters_of_arity (station : Station) {unit : Callable} {arguments : List Nat}
    (wrong : unit.params.length ≠ arguments.length) (context : Context) (returns : List Nat) :
    (station.callRegisters unit arguments returns).runOn context =
      .done (.error (.fault (.arityMismatch unit.qualifiedName unit.params.length
        arguments.length)), context) := by
  unfold callRegisters
  rw [Routine.runOn_bind, Routine.runOn_get, Process.done_bind]
  dsimp only
  rw [Routine.runOn_bind, Routine.runOn_effect, dispatch, Callable.checkArity, if_neg wrong]
  rfl

end Station

namespace Script

section Calls

variable {station : Station} {package function : String} {found : Package} {unit : Callable}
  (isPackage : station.program.package package = .ok found)
  (isFunction : Program.function found package function = .ok unit)

include isPackage isFunction

/-- A call fails at once, or passes the gate and calls the unit. -/
theorem runOn_callFunction (arguments returns : List Nat) (context : Context) :
    (callFunction station package function arguments returns).runOn context =
      if unit.returns.length < returns.length then
        .done (.error (.fault (.arityMismatch unit.qualifiedName unit.returns.length
          returns.length)), context)
      else
        (station.ensureInitialized found context).run.bind fun
          | .ok () => (station.callRegisters unit arguments returns).runOn context
          | .error interruption => .done (.error interruption, context) := by
  have packageFound : Effect.ofExcept (station.program.package package) = pure found := by
    rw [isPackage]
    rfl
  have functionFound : Effect.ofExcept (Program.function found package function) = pure unit := by
    rw [isFunction]
    rfl
  unfold callFunction
  rw [packageFound, Routine.runOn_bind, Routine.runOn_effect]
  rw [ExceptT.run_pure, Process.pure_eq_done, Process.done_bind, Process.done_bind]
  dsimp only
  rw [functionFound, Routine.runOn_bind, Routine.runOn_effect]
  rw [ExceptT.run_pure, Process.pure_eq_done, Process.done_bind, Process.done_bind]
  dsimp only
  split
  · rw [Routine.runOn_bind, Routine.runOn_throw, Process.done_bind]
  · rw [Routine.runOn_bind, Routine.runOn_get, Process.done_bind]
    dsimp only
    rw [Routine.runOn_bind, Routine.runOn_effect, Process.bind_assoc]
    congr 1
    funext outcome
    cases outcome <;> rfl

/-- An instruction that calls fails at once, or passes the gate and calls the unit. -/
theorem runOn_call (arguments returns : List Nat) (context : Context) :
    (carryOut station (.call package function arguments returns)).runOn context =
      if unit.returns.length < returns.length then
        .done (.error (.fault (.arityMismatch unit.qualifiedName unit.returns.length
          returns.length)), context)
      else
        (station.ensureInitialized found context).run.bind fun
          | .ok () =>
            (station.callRegisters unit arguments returns >>= fun _ =>
              pure Continuation.next).runOn context
          | .error interruption => .done (.error interruption, context) := by
  change (callFunction station package function arguments returns >>= fun _ =>
    pure Continuation.next).runOn context = _
  rw [Routine.runOn_bind, runOn_callFunction isPackage isFunction]
  split
  · rw [Process.done_bind]
  · rw [Process.bind_assoc]
    congr 1
    funext outcome
    cases outcome with
    | ok _ =>
        exact (Routine.runOn_bind _ _ context).symm
    | error interruption =>
        rfl

/-- A call that asks for too many results fails at once, and no other call does. -/
theorem failsAtOnce_iff (arguments returns : List Nat) (context : Context) (fault : Fault) :
    (carryOut station (.call package function arguments returns)).FailsAtOnce context fault ↔
      unit.returns.length < returns.length ∧
        fault = .arityMismatch unit.qualifiedName unit.returns.length returns.length := by
  unfold Routine.FailsAtOnce
  rw [runOn_call isPackage isFunction]
  by_cases tooMany : unit.returns.length < returns.length
  · rw [if_pos tooMany]
    constructor
    · intro same
      cases same
      exact ⟨tooMany, rfl⟩
    · rintro ⟨_, rfl⟩
      rfl
  · rw [if_neg tooMany]
    obtain ⟨ready, update, next, begins⟩ :=
      Station.exists_step_of_ensureInitialized station found context
    rw [begins]
    constructor
    · intro same
      cases same
    · rintro ⟨isMore, _⟩
      exact absurd isMore tooMany

/-- A call by name with a wrong number of arguments fails before it takes a step. -/
theorem run_callNamedIn_of_arity (parent : Context) {values : List Value}
    (wrong : unit.params.length ≠ values.length) :
    (station.callNamedIn parent package function values).run =
      .done (.error (.fault (.arityMismatch unit.qualifiedName unit.params.length
        values.length))) := by
  unfold Station.callNamedIn
  rw [isPackage]
  change (Effect.ofExcept (Program.function found package function) >>= _ : Effect _).run = _
  rw [isFunction]
  change (Effect.ofExcept (unit.checkArity values.length) >>= _ : Effect _).run = _
  rw [Callable.checkArity, if_neg wrong]
  rfl

/-- A call with a wrong number of arguments passes the gate and then fails without another step. -/
theorem runOn_call_of_arity {arguments returns : List Nat}
    (enough : returns.length ≤ unit.returns.length)
    (wrong : unit.params.length ≠ arguments.length) (context : Context) :
    (carryOut station (.call package function arguments returns)).runOn context =
      (station.ensureInitialized found context).run.bind fun outcome =>
        .done (outcome.bind fun _ => .error (.fault (.arityMismatch unit.qualifiedName
          unit.params.length arguments.length)), context) := by
  rw [runOn_call isPackage isFunction, if_neg (Nat.not_lt.mpr enough)]
  congr 1
  funext outcome
  cases outcome with
  | ok _ =>
      have refused := Station.runOn_callRegisters_of_arity station wrong context returns
      rw [Routine.runOn_bind, refused]
      rfl
  | error interruption =>
      rfl

/-- Once the init of its package has ended, a call with a wrong number of arguments looks at the gate
and fails, with the fault of the init if there is one. -/
theorem call_follows_of_arity {arguments returns : List Nat}
    (enough : returns.length ≤ unit.returns.length)
    (wrong : unit.params.length ≠ arguments.length) (context : Context)
    (outcome : Except Fault Unit) :
    (carryOut station (.call package function arguments returns)).Follows
      (.limitedTo (Machine.Settled found.name outcome) Eq Eq.refl) () context ()
      (fun _ _ _ => False) fun interruption after _ =>
        after = context ∧ interruption = .fault (match outcome with
          | .ok () => .arityMismatch unit.qualifiedName unit.params.length arguments.length
          | .error fault => fault) := by
  unfold Routine.Follows
  rw [runOn_call_of_arity isPackage isFunction enough wrong]
  refine Process.Follows.bind (Station.ensureInitialized_settled context) ?_
  intro answer _ reached
  cases answer with
  | ok _ =>
      have isOk : outcome = .ok () := reached
      subst isOk
      exact ⟨rfl, rfl⟩
  | error interruption =>
      obtain ⟨fault, isError, rfl⟩ := reached
      subst isError
      exact ⟨rfl, rfl⟩

/-- In an initialized package, a call whose arguments do not exist starts no worker. -/
theorem call_follows_of_unreadable {arguments returns : List Nat} {context : Context}
    (enough : returns.length ≤ unit.returns.length)
    (arity : unit.params.length = arguments.length)
    (unreadable : ∃ entry ∈ unit.params.banks.zip arguments,
      context.locals.sizes.get entry.1 ≤ entry.2) :
    (carryOut station (.call package function arguments returns)).Follows
      (.limitedTo (Machine.Settled found.name (.ok ())) Machine.SameEssentials .refl) () context ()
      (fun _ _ _ => False)
      fun interruption after _ => after = context ∧ context.CannotCall interruption := by
  obtain ⟨entry, member, missing⟩ := unreadable
  have called : (station.callRegisters unit arguments returns).Follows
      (.limitedTo (Machine.Settled found.name (.ok ())) Machine.SameEssentials .refl) () context ()
      (fun _ _ _ => False)
      fun interruption after _ => after = context ∧ context.CannotCall interruption :=
    Station.callRegisters_follows_of_unreadable (fun _ _ spares settled => spares.settled settled)
      returns (by rw [Callable.checkArity, if_pos arity])
      (Marshalling.exists_error_of_seed member missing)
  unfold Routine.Follows
  rw [runOn_call isPackage isFunction, if_neg (Nat.not_lt.mpr enough)]
  refine Process.Follows.bind (Station.ensureInitialized_settled context) ?_
  intro answer _ reached
  cases answer with
  | ok _ =>
      exact called.bind fun _ _ _ none => none.elim
  | error interruption =>
      obtain ⟨fault, isError, _⟩ := reached
      cases isError

end Calls

/-- How calls that cannot be made are rejected, when the function exists.  A call that asks for too
many results fails before it takes a step, and no other call does; by name, a wrong number of
arguments has the same effect.  With a wrong number of arguments an instruction first passes the
gate; only once the init of the package has ended does it leave the machine as it is.  With arguments
that do not exist it ends, in an initialized package, before any worker exists, but mostly with a
panic. -/
theorem rejection_of_calls {station : Station} {package function : String} {found : Package}
    {unit : Callable} (isPackage : station.program.package package = .ok found)
    (isFunction : Program.function found package function = .ok unit)
    (arguments returns : List Nat) (context : Context) :
    let call := carryOut station (.call package function arguments returns)
    let wrongCount : Fault :=
      .arityMismatch unit.qualifiedName unit.params.length arguments.length
    (∀ fault, call.FailsAtOnce context fault ↔ unit.returns.length < returns.length ∧
      fault = .arityMismatch unit.qualifiedName unit.returns.length returns.length) ∧
    (∀ (parent : Context) (values : List Value), unit.params.length ≠ values.length →
      (station.callNamedIn parent package function values).run =
        .done (.error (.fault (.arityMismatch unit.qualifiedName unit.params.length
          values.length)))) ∧
    (returns.length ≤ unit.returns.length → unit.params.length ≠ arguments.length →
      call.runOn context = (station.ensureInitialized found context).run.bind (fun outcome =>
        .done (outcome.bind fun _ => .error (.fault wrongCount), context)) ∧
      ∀ outcome, call.Follows (.limitedTo (Machine.Settled found.name outcome) Eq Eq.refl) ()
        context () (fun _ _ _ => False) fun interruption after _ =>
          after = context ∧ interruption = .fault (match outcome with
            | .ok () => wrongCount
            | .error fault => fault)) ∧
    (returns.length ≤ unit.returns.length → unit.params.length = arguments.length →
      (∃ entry ∈ unit.params.banks.zip arguments, context.locals.sizes.get entry.1 ≤ entry.2) →
        call.Follows (.limitedTo (Machine.Settled found.name (.ok ())) Machine.SameEssentials .refl) ()
          context () (fun _ _ _ => False) fun interruption after _ =>
            after = context ∧ context.CannotCall interruption) := by
  intro call wrongCount
  refine ⟨failsAtOnce_iff isPackage isFunction arguments returns context,
    fun parent values => run_callNamedIn_of_arity isPackage isFunction parent, ?_, ?_⟩
  · intro enough wrong
    exact ⟨runOn_call_of_arity isPackage isFunction enough wrong context,
      call_follows_of_arity isPackage isFunction enough wrong context⟩
  · intro enough arity unreadable
    exact call_follows_of_unreadable isPackage isFunction enough arity unreadable

def library : Package where
  name := "lib"
  init := some ⟨"lib", initUnitName, .init, .empty, .empty, ⟨defaultWorkerName, 0, .zero⟩, []⟩
  functions := .ofList [("scale", ⟨"lib", "scale", .function, ⟨[.int], [⟨.int, 0⟩], { longs := 1 }⟩,
    .empty, ⟨defaultWorkerName, 0, { longs := 1 }⟩, []⟩)]
  globals := .empty

def libraryStation : Station :=
  Setup.station ⟨.ofPackages [library] .zero, .rehearsed .inline, .full⟩
    (interpreter (.ofList [(⟨"lib", initUnitName, 0⟩, []), (⟨"lib", "scale", 0⟩, [])])) 0 2

/-- A call that asks the function of one integer for a result fails at once. -/
theorem call_for_missing_result_rejected :
    (carryOut libraryStation (.call "lib" "scale" [0] [0])).FailsAtOnce default
      (.arityMismatch "lib:scale" 0 1) := by
  have isPackage : libraryStation.program.package "lib" = .ok library := rfl
  obtain ⟨scale, isFunction, noResult, named⟩ : ∃ scale,
      Program.function library "lib" "scale" = .ok scale ∧ scale.returns.length = 0 ∧
        scale.qualifiedName = "lib:scale" :=
    ⟨_, rfl, rfl, rfl⟩
  have rejected := (rejection_of_calls isPackage isFunction [0] [0] default).1
  rw [noResult, named] at rejected
  exact (rejected _).mpr ⟨by decide, rfl⟩

/-- A call without the integer initializes the package before it is rejected. -/
theorem call_without_argument_initializes :
    let (root, machine) := Machine.inArena Machine.ownArena
      (fun records => records.register ⟨none, .running, Arena.rootLabel⟩)
      (Machine.start libraryStation.program .empty)
    let context := Context.root root none Machine.ownArena Machine.ownProperties
    ∃ after, ((carryOut libraryStation (.call "lib" "scale" [] [])).runOn context).runAlone machine =
        some ((.error (.fault (.arityMismatch "lib:scale" 1 0)), context), after) ∧
      machine.gate.outcome? "lib" = none ∧ after.gate.outcome? "lib" = some (.ok ()) ∧
      machine.tallies.inits = 0 ∧ after.tallies.inits = 1 :=
  ⟨_, rfl, rfl, rfl, rfl, rfl⟩

end Script

end WorkerMachine
