import WorkerMachine.Proofs.Failing.Hosts
/-!
# Trails of inits that fail

A call that has claimed a package runs the init unit, a worker of which calls into another package, and
so on down to an init unit that fails.  On the way up every init settles its package, and hands on what
it has settled it with.
-/

namespace WorkerMachine

open Settling

/-! ## Inits around the calls of their units -/

/-- What a trace tells of an init unit that has failed: the trace of the error that it has raised, or
the wording of the fault. -/
def TraceStyle.tell (style : TraceStyle) : Fault → String
  | .propagated error => style.render error
  | fault => fault.message

def Context.attempted :
    Except Interruption Unit × Context → Except Interruption (Except Fault Unit) × Context
  | (.ok answer, after) => (.ok (.ok answer), after)
  | (.error (.fault fault), after) => (.ok (.error fault), after)
  | (.error interruption, after) => (.error interruption, after)

namespace Station

variable {station : Station} {package : Package} {unit : Callable}

theorem attemptUnit_eq (station : Station) (unit : Callable) (context : Context) :
    (station.callUnit unit).attempt.runOn context =
      (station.invokeInSteps (Script.request unit context []) 0 context.locals []).run.bind
        fun answer => .done (Context.attempted (context.receiveStepwise answer)) := by
  unfold callUnit
  rw [Routine.runOn_attempt, callRegisters_eq_invokeInSteps, Process.bind_assoc]
  unfold Script.request
  congr 1
  funext answer
  rw [Process.done_bind]
  generalize context.receiveStepwise answer = received
  rcases received with ⟨(_ | _ | _) | _, _⟩ <;> rfl

/-- What is left of an init once its unit has been called from a context of its own. -/
def concludeInit (station : Station) (package : Package) (context : Context)
    (answer : Except Interruption (Except Interruption Unit × RegisterFile)) :
    Work (Except Interruption Unit) :=
  (Effect.followedBy (station.finishInit package
      (Context.attempted (context.receiveStepwise answer))) context.release).run.bind fun ran =>
    station.closeInit package ran

theorem run_runInit_bind (isInit : package.init = some unit) (caller : Context) :
    ((station.runInit package caller).run.bind fun ran => station.closeInit package ran) =
      (station.openInit package caller).bind fun context =>
        (station.invokeInSteps (Script.request unit context []) 0 context.locals []).run.bind
          (station.concludeInit package context) := by
  rw [runInit_eq isInit, Process.bind_assoc]
  congr 1
  funext context
  rw [attemptUnit_eq, Process.bind_assoc, Process.bind_assoc]
  rfl

/-- What is left of a call by an instruction once the gate of the package has been passed. -/
def afterGate (station : Station) (task : Task) (unit : Callable) (arguments returns : List Nat)
    (instructions : List Script.Instruction) (context : Context) :
    Except Interruption Unit → Work (Except Interruption ContextState)
  | .ok _ =>
    (station.invokeInSteps (Script.request unit context arguments) 0 context.locals
      returns).run.bind (station.finishCall task instructions context)
  | .error interruption => (task.conclude (.error interruption, context)).run

/-- An instruction that calls a function as it should passes the gate of the package first. -/
theorem finishBody_eq_gate {name function : String} {arguments returns : List Nat}
    (isPackage : station.program.package name = .ok package)
    (isFunction : Program.function package name function = .ok unit)
    (enough : returns.length ≤ unit.returns.length) (task : Task)
    (instructions : List Script.Instruction) (context : Context) :
    station.finishBody task (.call name function arguments returns :: instructions) context =
      (station.ensureInitialized package context).run.bind
        (station.afterGate task unit arguments returns instructions context) := by
  rw [finishBody_call]
  unfold Script.reachCall
  have found : ∀ {First Second : Type} (value : First) (follow : First → Effect Second),
      Effect.ofExcept (.ok value) >>= follow = follow value :=
    fun _ _ => rfl
  rw [isPackage, found, isFunction, found, if_neg (Nat.not_lt.mpr enough)]
  rw [Effect.run_bind, Process.bind_assoc]
  congr 1
  funext reached
  cases reached <;> rfl

/-- What is left of a call by name once the gate of the package has been passed. -/
def afterNamedGate (station : Station) (unit : Callable) (root : Context) (arguments : List Value) :
    Except Interruption Unit → Work (Except Interruption (List Value))
  | .ok _ => (station.callValues unit root arguments).run
  | .error interruption => .done (.error interruption)

/-- A call by name as it should be made passes the gate of the package first. -/
theorem callNamedIn_eq_gate {name function : String} {arguments : List Value}
    (isPackage : station.program.package name = .ok package)
    (isFunction : Program.function package name function = .ok unit)
    (arity : unit.params.length = arguments.length) (root : Context) :
    (station.callNamedIn root name function arguments).run =
      (station.ensureInitialized package root).run.bind
        (station.afterNamedGate unit root arguments) := by
  have found : ∀ {First Second : Type} (value : First) (follow : First → Effect Second),
      Effect.ofExcept (.ok value) >>= follow = follow value :=
    fun _ _ => rfl
  have checked : unit.checkArity arguments.length = .ok () := if_pos arity
  unfold callNamedIn
  rw [isPackage, found, isFunction, found, checked, found, Effect.run_bind]
  congr 1
  funext reached
  cases reached <;> rfl

end Station

/-! ## Trails -/

/-- A package that is initialized for a context, and the context that the init unit is called from. -/
structure InitLink where
  package : Package
  caller : Context
  context : Context

/-- A call of an init unit fails with a fault, which may hand on an error. -/
inductive Fault.EndsCall (fault : Fault) :
    Except Interruption (Except Interruption Unit × RegisterFile) → Prop
  | joined (locals : RegisterFile) : EndsCall fault (.ok (.error (.fault fault), locals))
  | refused : fault.propagated? = none → EndsCall fault (.error (.fault fault))

variable {Answer : Type} {arrivals : Arrivals ThreadId Machine (Option Answer)}

/-- A thread that is to make sure that a package is initialized claims it, and goes through the init up
to the call of the init unit. -/
structure Crowd.EntersInit (arrivals : Arrivals ThreadId Machine (Option Answer)) (station : Station)
    (link : InitLink) (unit : Callable) (goesOn : Except Interruption Unit → Work (Option Answer))
    (crowd begun : Crowd ThreadId Machine (Option Answer)) : Prop where
  process : crowd.process station.thread =
    some ((station.ensureInitialized link.package link.caller).run.bind goesOn)
  isFound : ∃ name, station.program.package name = .ok link.package
  isInit : link.package.init = some unit
  opens : ∃ claimed opening, crowd.Claims arrivals station.thread station link.package link.caller
      claimed ∧
    Crowd.Passes arrivals station.thread opening link.context begun
      (station.openInit link.package link.caller) claimed

/-- A chain of inits, from a crowd in which a thread is to make sure that the first package is
initialized until it has an outcome.  The init unit of the last package fails.  A worker of every other
init unit calls a function of the next package as it should, and of the workers of that init unit only
this one has failed when the call of the init unit returns. -/
inductive Crowd.InitTrail (setup : Setup) (interpreter : Interpreter)
    (arrivals : Arrivals ThreadId Machine (Option Answer)) (last : Package) (ending : Fault) :
    Crowd ThreadId Machine (Option Answer) → ThreadId →
      (Except Interruption Unit → Work (Option Answer)) → Except Interruption Unit →
      List InitLink → Crowd ThreadId Machine (Option Answer) → Prop
  | ended {crowd begun returned later : Crowd ThreadId Machine (Option Answer)} {thread : ThreadId}
      {nesting : Nat} {station : Station} {link : InitLink} {unit : Callable}
      {goesOn outcome answer follow} :
      station = setup.station interpreter thread nesting →
      link.package = last →
      crowd.EntersInit arrivals station link unit goesOn begun →
      Passes arrivals thread follow answer returned
        (station.invokeInSteps (Script.request unit link.context []) 0 link.context.locals []).run
        begun →
      ending.EndsCall answer → ending.isFatal = false →
      Passes arrivals thread goesOn outcome later
        (station.concludeInit link.package link.context answer) returned →
      InitTrail setup interpreter arrivals last ending crowd thread goesOn outcome [link] later
  | called {crowd begun worked ended concluded returned later : Crowd ThreadId Machine (Option Answer)}
      {thread worker : ThreadId} {nesting depth : Nat} {station inside : Station}
      {link next : InitLink} {inner : List InitLink} {unit callee : Callable} {task : Task}
      {name function : String} {arguments returns : List Nat}
      {instructions : List Script.Instruction} {goesOn outcome answer follow reached left}
      {goesOnWorker : Except Interruption ContextState → Work (Option Answer)} :
      station = setup.station interpreter thread nesting →
      crowd.EntersInit arrivals station link unit goesOn begun →
      begun.Calls arrivals station (Script.request unit link.context []) link.context.locals [] task
        follow answer returned →
      begun.Leads arrivals worked →
      inside = setup.station interpreter worker depth →
      worked.process worker = some ((inside.finishBody task
        (.call name function arguments returns :: instructions) next.caller).bind goesOnWorker) →
      inside.program.package name = .ok next.package →
      Program.function next.package name function = .ok callee →
      returns.length ≤ callee.returns.length →
      InitTrail setup interpreter arrivals last ending worked worker
        (fun reached => (inside.afterGate task callee arguments returns instructions next.caller
          reached).bind goesOnWorker) reached (next :: inner) ended →
      Passes arrivals worker goesOnWorker left concluded
        (inside.afterGate task callee arguments returns instructions next.caller reached) ended →
      concluded.Leads arrivals returned →
      returned.state.OnlyFails unit task →
      Passes arrivals thread goesOn outcome later
        (station.concludeInit link.package link.context answer) returned →
      InitTrail setup interpreter arrivals last ending crowd thread goesOn outcome
        (link :: next :: inner) later

/-- How a link of a chain of inits fails: the init unit has been called from a context below the caller,
and the package has been settled with the failure. -/
structure InitLink.Fails (arrivals : Arrivals ThreadId Machine (Option Answer)) (failure : Fault)
    (crowd later : Crowd ThreadId Machine (Option Answer)) (link : InitLink) : Prop where
  below : link.context.parent = some link.caller.id
  called : .initCalled link.package.name link.context.id ∈ later.state.history
  settles : ∃ moment : Crowd ThreadId Machine (Option Answer), crowd.Leads arrivals moment ∧
    moment.Leads arrivals later ∧
    moment.state.gate.outcome? link.package.name = some (.error failure)

section Inits

variable {thread : ThreadId} {crowd begun later : Crowd ThreadId Machine (Option Answer)}
  {station : Station} {link : InitLink} {unit : Callable} {failure : Fault}
  {goesOn : Except Interruption Unit → Work (Option Answer)} {outcome : Except Interruption Unit}
  {answer : Except Interruption (Except Interruption Unit × RegisterFile)} {package : Package}
  {context : Context} {style : TraceStyle}

theorem Crowd.EntersInit.leads (enters : crowd.EntersInit arrivals station link unit goesOn begun) :
    crowd.Leads arrivals begun := by
  obtain ⟨claimed, opening, ⟨phase, follow, _, passes⟩, opens⟩ := enters.opens
  exact passes.leads.trans opens.leads

/-- The context of an init is a fresh one below the caller, and the call of the init unit is noted. -/
theorem Crowd.EntersInit.opened (keeps : crowd.KeepsBooks arrivals)
    (enters : crowd.EntersInit arrivals station link unit goesOn begun) :
    link.context.parent = some link.caller.id ∧ link.context.error = none ∧
      .initCalled link.package.name link.context.id ∈ begun.state.history := by
  obtain ⟨claimed, opening, ⟨phase, follow, _, passes⟩, opens⟩ := enters.opens
  have keepsClaimed := keeps.leads passes.leads
  unfold Station.openInit at opens
  obtain ⟨_, counted, passesCount, opensCounted⟩ := opens.exists_between
  obtain ⟨id, registered, passesRegister, opensRegistered⟩ := opensCounted.exists_between
  obtain ⟨_, marked, passesMark, opensMarked⟩ := opensRegistered.exists_between
  have isContext := opensMarked.eq_of_done
  obtain ⟨moment, taken, _, leadsTaken, leadsMarked, isTaken⟩ := passesMark.exists_taken
  have keepsTaken := ((keepsClaimed.leads passesCount.leads).leads passesRegister.leads).leads leadsTaken
  rw [← isContext]
  refine ⟨rfl, rfl, keepsTaken.history (leadsMarked.trans opensMarked.leads) ?_⟩
  rw [isTaken]
  exact List.mem_cons_self

/-- An init whose unit has failed settles its package with the failure, and ends with it. -/
theorem Station.settles_of_concludes {fault : Fault} {after : Context}
    (isAttempted : Context.attempted (context.receiveStepwise answer) = (.ok (.error fault), after))
    (isOutcome : initOutcome station.traceStyle package.name after.error (.error fault) =
      .error failure)
    (passes : Crowd.Passes arrivals thread goesOn outcome later
      (station.concludeInit package context answer) crowd) :
    outcome = .error (.fault failure) ∧ ∃ moment : Crowd ThreadId Machine (Option Answer),
      crowd.Leads arrivals moment ∧ moment.Leads arrivals later ∧
      moment.state.gate.outcome? package.name = some (.error failure) := by
  unfold concludeInit at passes
  rw [isAttempted] at passes
  obtain ⟨ran, finished, passesRun, passesClose⟩ := passes.exists_between
  rw [Effect.run_followedBy] at passesRun
  obtain ⟨result, unmarked, passesFinish, passesRelease⟩ := passesRun.exists_between
  obtain ⟨_, _, _, passesLast⟩ := passesRelease.exists_between
  obtain rfl := passesLast.eq_of_done
  rw [finishInit_eq, isOutcome] at passesFinish
  obtain ⟨_, _, _, passesFault⟩ := passesFinish.exists_between
  obtain rfl := passesFault.eq_of_done
  unfold closeInit at passesClose
  dsimp only at passesClose
  rw [settleInit_eq] at passesClose
  obtain ⟨_, settled, passesSettle, passesOn⟩ := passesClose.exists_between
  obtain ⟨_, _, _, passesDone⟩ := passesOn.exists_between
  obtain ⟨moment, taken, _, leadsTaken, leadsSettled, isTaken⟩ := passesSettle.exists_taken
  refine ⟨passesDone.eq_of_done.symm, taken, passesRun.leads.trans leadsTaken,
    leadsSettled.trans passesOn.leads, ?_⟩
  rw [isTaken, Gate.outcome?_eq_some_iff, Gate.stage_setCell, Function.update_self]

/-- A fault that hands on no error becomes the failure of the package by its wording. -/
theorem initOutcome_of_fault {fault : Fault} (noError : fault.propagated? = none)
    (notFatal : fault.isFatal = false) (name : String) :
    initOutcome style name none (.error fault) =
      .error (.packageInitFailure name (style.tell fault)) := by
  unfold initOutcome
  dsimp only
  rw [notFatal]
  cases fault with
  | propagated error => cases noError
  | _ => rfl

/-- What an init unit has failed with becomes the failure of the package. -/
theorem Fault.EndsCall.exists_outcome {ending : Fault} (ends : ending.EndsCall answer)
    (notFatal : ending.isFatal = false) (fresh : context.error = none) (style : TraceStyle)
    (name : String) :
    ∃ after, Context.attempted (context.receiveStepwise answer) = (.ok (.error ending), after) ∧
      initOutcome style name after.error (.error ending) =
        .error (.packageInitFailure name (style.tell ending)) := by
  cases ends with
  | refused noError =>
    refine ⟨context, rfl, ?_⟩
    rw [fresh]
    exact initOutcome_of_fault noError notFatal name
  | joined locals =>
    cases handsOn : ending.propagated? with
    | none =>
      have received : context.receive (.error (.fault ending), locals) =
          (.error (.fault ending), { context with locals := locals }) := by
        apply context.receive_error
        rintro error isError
        cases isError
        cases handsOn
      refine ⟨{ context with locals := locals }, ?_, ?_⟩
      · unfold Context.receiveStepwise
        dsimp only
        rw [received]
        rfl
      · dsimp only
        rw [fresh]
        exact initOutcome_of_fault handsOn notFatal name
    | some error =>
      obtain rfl : ending = .propagated error := by
        cases ending <;> cases handsOn
        rfl
      exact ⟨_, rfl, rfl⟩

end Inits

section Chains

variable {setup : Setup} {interpreter : Interpreter} {last : Package} {ending : Fault}
  {crowd earlier later after : Crowd ThreadId Machine (Option Answer)} {thread : ThreadId}
  {goesOn : Except Interruption Unit → Work (Option Answer)} {outcome : Except Interruption Unit}
  {chain : List InitLink} {failure : Fault} {link : InitLink}

theorem InitLink.Fails.leads (keeps : crowd.KeepsBooks arrivals)
    (fails : link.Fails arrivals failure crowd later) (before : earlier.Leads arrivals crowd)
    (leads : crowd.Leads arrivals later) (since : later.Leads arrivals after) :
    link.Fails arrivals failure earlier after := by
  obtain ⟨moment, leadsMoment, leadsLater, settled⟩ := fails.settles
  exact ⟨fails.below, (keeps.leads leads).history since fails.called,
    moment, before.trans leadsMoment, leadsLater.trans since, settled⟩

theorem Crowd.InitTrail.reached
    (trail : crowd.InitTrail setup interpreter arrivals last ending thread goesOn outcome chain
      later) : later.process thread = some (goesOn outcome) := by
  cases trail with
  | ended _ _ _ _ _ _ concludes => exact concludes.reached
  | called _ _ _ _ _ _ _ _ _ _ _ _ _ concludes => exact concludes.reached

/-- Up a chain of inits, every package is settled with the failure of the last one, every worker that
has called into the next package is left with this failure, and so is whoever has asked for the first
package. -/
theorem Crowd.InitTrail.fails
    (trail : crowd.InitTrail setup interpreter arrivals last ending thread goesOn outcome chain later)
    (keeps : crowd.KeepsBooks arrivals)
    (tasks : ∀ thread nesting, (setup.station interpreter thread nesting).SettlesTasks)
    (wellBuilt : setup.program.WellBuilt) :
    let failure := Fault.packageInitFailure last.name (setup.traceStyle.tell ending)
    crowd.Leads arrivals later ∧ outcome = .error (.fault failure) ∧
      (∀ link ∈ chain, link.Fails arrivals failure crowd later) ∧
      ∀ link ∈ chain.tail, ∃ task, .ended task (.error (.fault failure)) link.caller ∈
        later.state.history := by
  intro failure
  induction trail with
  | @ended crowd begun returned later thread nesting station link unit goesOn outcome answer follow
      isStation isLast enters passes ends notFatal concludes =>
    subst isStation isLast
    obtain ⟨below, fresh, called⟩ := enters.opened keeps
    have keepsBegun := keeps.leads enters.leads
    have leadsReturned := enters.leads.trans passes.leads
    obtain ⟨after, isAttempted, isOutcome⟩ :=
      ends.exists_outcome notFatal fresh setup.traceStyle link.package.name
    have sameStyle : (setup.station interpreter thread nesting).traceStyle = setup.traceStyle := by
      rw [Setup.toSetup_station]
    rw [← sameStyle] at isOutcome
    obtain ⟨failed, moment, leadsMoment, leadsLater, settled⟩ :=
      Station.settles_of_concludes isAttempted isOutcome concludes
    rw [sameStyle] at failed settled
    refine ⟨leadsReturned.trans concludes.leads, failed, ?_, fun _ never => by cases never⟩
    intro other member
    obtain rfl := List.mem_singleton.mp member
    exact ⟨below, keepsBegun.history (passes.leads.trans concludes.leads) called, moment,
      leadsReturned.trans leadsMoment, leadsLater, settled⟩
  | @called crowd begun worked ended concluded returned later thread worker nesting depth station
      inside link next inner unit callee task name function arguments returns instructions goesOn
      outcome answer follow reached left goesOnWorker isStation enters calls leadsWorked isInside _
      isPackage isFunction enough _ concludesTask leadsReturned only concludes inductionHypothesis =>
    subst isStation
    have sameSetup : (setup.station interpreter thread nesting).toSetup = setup :=
      setup.toSetup_station interpreter thread nesting
    obtain ⟨below, fresh, called⟩ := enters.opened keeps
    have keepsBegun := keeps.leads enters.leads
    have keepsWorked := keepsBegun.leads leadsWorked
    obtain ⟨leadsEnded, rfl, fails, left⟩ := inductionHypothesis keepsWorked
    have keepsEnded := keepsWorked.leads leadsEnded
    have keepsConcluded := keepsEnded.leads concludesTask.leads
    have keepsReturned := keepsConcluded.leads leadsReturned
    -- The worker is left with the failure, and the call of the init unit answers with it.
    have endedTask : .ended task (.error (.fault failure)) next.caller ∈ returned.state.history :=
      keepsConcluded.history leadsReturned (keepsEnded.ended_of_concluded concludesTask)
    obtain ⟨name, isFound⟩ := enters.isFound
    rw [sameSetup] at isFound
    have answered : answer = .ok (.error (.fault failure), link.context.locals) :=
      keepsBegun.answer_of_onlyFails (tasks thread nesting)
        ((wellBuilt.sound name _ isFound).2 unit (.inl enters.isInit)).2
        (wellBuilt.numbered name _ isFound unit (.inl enters.isInit)) calls only endedTask rfl
    subst answered
    have isOutcome : initOutcome (setup.station interpreter thread nesting).traceStyle
        link.package.name link.context.error (.error failure) = .error failure := by
      rw [fresh]
      rfl
    obtain ⟨failed, moment, leadsMoment, leadsLater, settled⟩ :=
      Station.settles_of_concludes rfl isOutcome concludes
    have leadsWorker := enters.leads.trans leadsWorked
    have leadsOn := (concludesTask.leads.trans leadsReturned).trans concludes.leads
    have leadsBack := (leadsWorker.trans leadsEnded).trans (concludesTask.leads.trans leadsReturned)
    refine ⟨leadsBack.trans concludes.leads, failed, ?_, ?_⟩
    · intro other member
      rcases List.mem_cons.mp member with rfl | isInner
      · exact ⟨below, keepsBegun.history ((leadsWorked.trans leadsEnded).trans leadsOn) called, moment,
          leadsBack.trans leadsMoment, leadsLater, settled⟩
      · exact (fails other isInner).leads keepsWorked leadsWorker leadsEnded leadsOn
    · intro other member
      rcases List.mem_cons.mp member with rfl | isInner
      · exact ⟨task, keepsReturned.history concludes.leads endedTask⟩
      · obtain ⟨own, ended⟩ := left other isInner
        exact ⟨own, keepsEnded.history leadsOn ended⟩

end Chains

end WorkerMachine
