import WorkerMachine.Proofs.Constants.Resolution
import WorkerMachine.Proofs.Failing.Alone
import WorkerMachine.Proofs.Settling.Hosts
/-!
# Trails of errors up to a host

A host calls a function by name, and a worker of the function is the outermost link of a chain of
calls.  The host is answered with the error that has crossed the whole chain.
-/

namespace WorkerMachine

open Settling

/-! ## Calls by name -/

theorem Callable.length_of_checkArity {unit : Callable} {actual : Nat}
    (checked : unit.checkArity actual = .ok ()) : unit.params.length = actual := by
  unfold checkArity at checked
  split at checked
  · assumption
  · cases checked

namespace Station

/-- Find the unit that a host calls by name, make sure that its package is initialized, and lower the
arguments. -/
def reachNamed (station : Station) (root : Context) (package function : String)
    (arguments : List Value) : Effect (Callable × RegisterFile) := do
  let found ← Effect.ofExcept (station.program.package package)
  let unit ← Effect.ofExcept (Program.function found package function)
  Effect.ofExcept (unit.checkArity arguments.length)
  station.ensureInitialized found root
  let source ← ExceptT.mk (pure (Marshalling.lower unit.params arguments))
  return (unit, source)

/-- What a host requests that calls a unit below a root, once its arguments have been lowered. -/
def namedRequest (unit : Callable) (root : Context) (source : RegisterFile) : Request :=
  ⟨unit, root, source, unit.params.indices, true⟩

/-- A call by name reaches the unit, makes the call, and raises its results. -/
theorem callNamedIn_eq (station : Station) (root : Context) (package function : String)
    (arguments : List Value) :
    (station.callNamedIn root package function arguments).run =
      (station.reachNamed root package function arguments).run.bind fun
        | .ok (unit, source) =>
          (station.invokeInSteps (namedRequest unit root source) 0 (.ofSizes unit.returns.sizes)
            unit.returns.indices).run.bind fun answer => .done (unit.answerStepwise answer)
        | .error interruption => .done (.error interruption) := by
  have found : ∀ {First : Type} (value : First) {Second : Type} (follow : First → Effect Second),
      Effect.ofExcept (.ok value) >>= follow = follow value :=
    fun _ _ _ => rfl
  unfold callNamedIn reachNamed
  cases station.program.package package with
  | error fault => rfl
  | ok entry =>
    rw [found, found]
    cases Program.function entry package function with
    | error fault => rfl
    | ok unit =>
      rw [found, found]
      cases checked : unit.checkArity arguments.length with
      | error fault => rfl
      | ok _ =>
        rw [found, found, Effect.run_bind, Effect.run_bind, Process.bind_assoc]
        congr 1
        funext initialized
        cases initialized with
        | error interruption => rfl
        | ok _ =>
          dsimp only
          cases lowered : Marshalling.lower unit.params arguments with
          | error interruption =>
            unfold callValues
            rw [checked, lowered]
            rfl
          | ok source =>
            exact station.callValues_eq_invokeInSteps root (Callable.length_of_checkArity checked)
              lowered

variable {Answer : Type} {arrivals : Arrivals ThreadId Machine (Option Answer)} {thread : ThreadId}
  {crowd later : Crowd ThreadId Machine (Option Answer)}

theorem wellBuilt_of_reachedNamed {station : Station} {root : Context} {package function : String}
    {arguments : List Value} {unit : Callable} {source : RegisterFile}
    {follow : Except Interruption (Callable × RegisterFile) → Work (Option Answer)}
    (wellBuilt : station.program.WellBuilt)
    (passes : Crowd.Passes arrivals thread follow (.ok (unit, source)) later
      (station.reachNamed root package function arguments).run crowd) :
    unit.Sound ∧ unit.workers.Nodup := by
  unfold reachNamed at passes
  obtain ⟨found, isPackage, passes⟩ := passes.of_ofExcept
  obtain ⟨reached, isFunction, passes⟩ := passes.of_ofExcept
  obtain ⟨_, _, passes⟩ := passes.of_ofExcept
  obtain ⟨_, _, _, passes⟩ := passes.of_ok
  obtain ⟨_, _, _, passesLast⟩ := passes.of_ok
  have isUnit : reached = unit := congrArg Prod.fst (Except.ok.inj passesLast.eq_of_done)
  rw [isUnit] at isFunction
  exact wellBuilt.of_found isPackage isFunction

end Station

/-! ## Trails that begin at a host -/

/-- A host calls a function by name below a root.  The first link of a trail is a worker of the unit
that is called, and of the workers of the call only this one has failed when the call returns. -/
inductive Crowd.NamedTrail {Answer : Type} (setup : Setup) (interpreter : Interpreter)
    (arrivals : Arrivals ThreadId Machine (Option Answer)) (message : String) (thread : ThreadId)
    (root : Context) (package function : String) (arguments : List Value)
    (goesOn : Except Interruption (List Value) → Work (Option Answer)) :
    Crowd ThreadId Machine (Option Answer) → List Link →
      Crowd ThreadId Machine (Option Answer) → Prop
  | called {crowd ready begun ended returned : Crowd ThreadId Machine (Option Answer)}
      {link : Link} {inner : List Link} {nesting : Nat} {station : Station} {source : RegisterFile}
      {follow : Except Interruption (Callable × RegisterFile) → Work (Option Answer)}
      {answer : Except Interruption (Except Interruption Unit × RegisterFile)} :
      station = setup.station interpreter thread nesting →
      crowd.process thread =
        some ((station.callNamedIn root package function arguments).run.bind goesOn) →
      Passes arrivals thread follow (.ok (link.unit, source)) ready
        (station.reachNamed root package function arguments).run crowd →
      ready.Calls arrivals station (Station.namedRequest link.unit root source)
        (.ofSizes link.unit.returns.sizes) link.unit.returns.indices link.task
        (fun answer => goesOn (link.unit.answerStepwise answer)) answer returned →
      ready.Leads arrivals begun → begun.Trail setup interpreter arrivals message (link :: inner) ended →
      ended.Leads arrivals returned →
      returned.state.OnlyFails link.unit link.task →
      NamedTrail setup interpreter arrivals message thread root package function arguments goesOn
        crowd (link :: inner) returned

section Hosts

variable {Answer : Type} {arrivals : Arrivals ThreadId Machine (Option Answer)} {setup : Setup}
  {interpreter : Interpreter} {message : String} {thread : ThreadId} {root : Context}
  {package function : String} {arguments : List Value}
  {goesOn : Except Interruption (List Value) → Work (Option Answer)}
  {crowd returned : Crowd ThreadId Machine (Option Answer)} {chain : List Link}

/-- A host is answered with the error that has crossed the whole chain. -/
theorem Crowd.NamedTrail.answers
    (trail : crowd.NamedTrail setup interpreter arrivals message thread root package function arguments
      goesOn chain returned)
    (keeps : crowd.KeepsBooks arrivals)
    (tasks : ∀ thread nesting, (setup.station interpreter thread nesting).SettlesTasks)
    (wellBuilt : setup.program.WellBuilt) :
    returned.process thread =
        some (goesOn (.error (.fault (.propagated (Link.crossed message chain))))) ∧
      ∀ outer link inner, chain = outer ++ link :: inner →
        link.Raises returned.state message inner := by
  cases trail with
  | @called _ ready begun ended link inner nesting station source follow answer isStation _ reaches
      calls leadsBegun trail leadsReturned only =>
    have keepsReady := keeps.leads reaches.leads
    have keepsBegun := keepsReady.leads leadsBegun
    obtain ⟨leadsEnded, raises⟩ := trail.raises keepsBegun tasks wellBuilt
    have keepsEnded := keepsBegun.leads leadsEnded
    have kept : ∀ outer other inner', link :: inner = outer ++ other :: inner' →
        other.Raises returned.state message inner' :=
      fun outer other inner isChain => (raises outer other inner isChain).leads keepsEnded leadsReturned
    refine ⟨?_, kept⟩
    obtain ⟨exit, after, ended, _, _, judged⟩ := kept [] link inner rfl
    have fails : (judge after exit).failure? =
        some (.propagated (Link.crossed message (link :: inner))) := by
      rw [judged]
      rfl
    subst isStation
    have program : (setup.station interpreter thread nesting).program = setup.program :=
      setup.program_station interpreter thread nesting
    obtain ⟨sound, distinct⟩ := Station.wellBuilt_of_reachedNamed (by rwa [program]) reaches
    have answered := keepsReady.answer_of_onlyFails (tasks thread nesting) sound distinct calls only
      ended fails
    obtain ⟨opened, _, passes⟩ := calls
    have reached := passes.reached
    rw [answered, Setup.thread_station] at reached
    exact reached

end Hosts

theorem Session.keepsBooks {setup : Setup} {bodies : Table BodyKey (List Script.Instruction)}
    {properties : Properties} {constants : List (String × String)} {session : Session}
    (starts : Session.start setup (Script.interpreter bodies) properties constants = .ok session)
    (sound : setup.program.Sound) {Answer : Type} {depth : Nat}
    {crowd : Crowd ThreadId Machine (Option Answer)} (fresh : crowd.state = session.machine)
    (hosts : ∀ thread process, crowd.process thread = some process →
      (setup.station (Script.interpreter bodies) thread depth).CallsByName process) :
    crowd.KeepsBooks (setup.Starts (Script.interpreter bodies) depth) := by
  have settles := Script.interpreter_settles bodies
  have uncalled : crowd.state.Uncalled := by
    rw [fresh]
    exact Session.start_uncalled starts
  exact ⟨Setup.starts_welcoming_settling sound settles depth,
    Crowd.orderly_settling sound settles uncalled hosts,
    setup.starts_welcoming_endingStarted bodies depth,
    Crowd.orderly_endingStarted uncalled.history hosts⟩

/-! ## A host that moves alone -/

/-- The task with which a host that calls by name, and moves alone, enters the body of the first worker,
and the machine as it is then. -/
def Station.namedEntry (station : Station) (package function : String) (machine : Machine) :
    Option (Task × Machine) := do
  let opening ← (openRoot Machine.ownArena Machine.ownProperties).run.runAlone machine
  let root ← opening.1.toOption
  let reaching ← (station.reachNamed root package function []).run.runAlone opening.2
  let (unit, source) ← reaching.1.toOption
  station.entry (namedRequest unit root source) reaching.2

theorem Station.enters_callNamed {setup : Setup} {interpreter : Interpreter} {thread : ThreadId}
    {nesting : Nat} {package function : String} {machine later : Machine} {task : Task}
    (enters : (setup.station interpreter thread (nesting + 1)).namedEntry package function machine =
      some (task, later)) :
    Process.Enters ((setup.station interpreter thread nesting).body interpreter task) later
        ((setup.station interpreter thread (nesting + 1)).callNamed package function []).run
        machine ∧
      .started task ∈ later.history := by
  unfold namedEntry at enters
  obtain ⟨⟨_, opened⟩, opens, onOpened⟩ := Option.bind_eq_some_iff.mp enters
  obtain ⟨root, isRoot, onRoot⟩ := Option.bind_eq_some_iff.mp onOpened
  obtain ⟨⟨_, ready⟩, reaches, onReady⟩ := Option.bind_eq_some_iff.mp onRoot
  obtain ⟨⟨unit, source⟩, isReached, entersUnit⟩ := Option.bind_eq_some_iff.mp onReady
  obtain rfl := eq_ok_of_toOption isRoot
  obtain rfl := eq_ok_of_toOption isReached
  refine ⟨?_, started_of_entry entersUnit⟩
  unfold callNamed
  rw [Effect.run_bind]
  apply Process.Enters.of_runAlone opens
  dsimp only
  rw [Effect.run_followedBy, callNamedIn_eq, Process.bind_assoc]
  apply Process.Enters.of_runAlone reaches
  dsimp only
  rw [Process.bind_assoc]
  exact (enters_invokeInSteps entersUnit).bind _

/-- A host that calls by name and moves alone makes a trail if the worker that it enters does. -/
theorem Crowd.exists_namedTrail {Answer : Type} {setup : Setup}
    {bodies : Table BodyKey (List Script.Instruction)}
    {arrivals : Arrivals ThreadId Machine (Option Answer)} {thread : ThreadId} {nesting : Nat}
    {message : String} {root : Context} {package function : String} {arguments : List Value}
    {goesOn : Except Interruption (List Value) → Work (Option Answer)}
    {crowd : Crowd ThreadId Machine (Option Answer)} {link : Link} {inner : List Link}
    {source : RegisterFile} {ready entered last : Machine}
    {answer : Except Interruption (Except Interruption Unit × RegisterFile)}
    (keeps : crowd.KeepsBooks arrivals)
    (begun : crowd.process thread = some (((setup.station (Script.interpreter bodies) thread
      (nesting + 1)).callNamedIn root package function arguments).run.bind goesOn))
    (reaches : ((setup.station (Script.interpreter bodies) thread (nesting + 1)).reachNamed root
      package function arguments).run.runAlone crowd.state = some (.ok (link.unit, source), ready))
    (enters : (setup.station (Script.interpreter bodies) thread (nesting + 1)).entry
      (Station.namedRequest link.unit root source) ready = some (link.task, entered))
    (answers : ((setup.station (Script.interpreter bodies) thread (nesting + 1)).invokeInSteps
      (Station.namedRequest link.unit root source) 0 (.ofSizes link.unit.returns.sizes)
      link.unit.returns.indices).run.runAlone ready = some (answer, last))
    (only : ∀ exit left, .ended link.task exit left ∈ last.history →
      last.OnlyFails link.unit link.task)
    (makes : ∀ state after, ((setup.station (Script.interpreter bodies) thread nesting).body
      (Script.interpreter bodies) link.task).runAlone entered = some (state, after) →
      link.MakesTrail setup bodies arrivals thread nesting message inner entered state after) :
    ∃ returned, crowd.NamedTrail setup (Script.interpreter bodies) arrivals message thread root package
      function arguments goesOn (link :: inner) returned := by
  have begunReach := begun
  rw [Station.callNamedIn_eq, Process.bind_assoc] at begunReach
  obtain ⟨atReady, passesReach, rfl⟩ := exists_passes_of_runAlone begunReach reaches
  have begunCall := passesReach.reached
  dsimp only at begunCall
  rw [Process.bind_assoc] at begunCall
  obtain ⟨atEntered, goesOnNext, state, after, leadsEntered, isEntered, begunBody, ranBody, returns⟩ :=
    exists_calls rfl begunCall enters answers
  have keepsEntered := (keeps.leads passesReach.leads).leads leadsEntered
  obtain ⟨left, trail, passesBody, isLeft⟩ :=
    makes state after ranBody atEntered goesOnNext keepsEntered isEntered begunBody
  obtain ⟨returned, calls, leadsReturned, rfl⟩ := returns isLeft passesBody
  obtain ⟨exit, ended, isEnded⟩ := keepsEntered.exists_ended passesBody
  have keepsLeft := keepsEntered.leads passesBody.leads
  exact ⟨returned, .called rfl begun passesReach calls leadsEntered trail leadsReturned
    (only exit ended (keepsLeft.history leadsReturned isEnded))⟩

theorem Machine.onlyFails_of_single {machine : Machine} {link : Link}
    (single : link.unit.scheduledWorkers = [])
    (isActive : link.task.context.activity = some (link.unit, link.unit.callerWorker))
    (once : (machine.endings link.task.response).length = 1)
    {exit : Except Interruption WorkerExit} {after : Context}
    (ended : .ended link.task exit after ∈ machine.history) :
    machine.OnlyFails link.unit link.task := by
  have isEnding : ⟨link.task, exit, after⟩ ∈ machine.endings link.task.response :=
    Machine.mem_endings.mpr ⟨ended, rfl⟩
  obtain ⟨ending, isOnly⟩ := List.length_eq_one_iff.mp once
  rw [isOnly] at isEnding
  obtain rfl := List.mem_singleton.mp isEnding
  constructor
  · rw [isOnly]
    unfold Callable.workers
    rw [single]
    have isWorker : link.task.worker = link.unit.callerWorker := by
      unfold Task.worker
      rw [isActive]
      rfl
    exact .of_eq (congrArg (fun worker => [worker]) isWorker)
  · intro other isOther different
    rw [isOnly] at isOther
    rw [List.mem_singleton.mp isOther] at different
    exact absurd rfl different

/-- The links of the chain that a host makes if nobody else moves, and if a function that it calls calls
another one, which raises an error. -/
def Setup.chainAlone (setup : Setup) (bodies : Table BodyKey (List Script.Instruction))
    (nesting : Nat) (machine : Machine) : Option (Link × Link) := do
  let station := setup.station (Script.interpreter bodies) Session.hostThread
  let opening ← (openRoot Machine.ownArena Machine.ownProperties).run.runAlone machine
  let root ← opening.1.toOption
  let reaching ← ((station (nesting + 2)).reachNamed root "chain" "outer" []).run.runAlone opening.2
  let (unit, source) ← reaching.1.toOption
  let request := Station.namedRequest unit root source
  let (task, entered) ← (station (nesting + 2)).entry request reaching.2
  let (_, last) ← ((station (nesting + 2)).invokeInSteps request 0 (.ofSizes unit.returns.sizes)
    unit.returns.indices).run.runAlone reaching.2
  let reachingInner ←
    (Script.reachCall (station (nesting + 1)) task.context "chain" "inner" []).run.runAlone entered
  let unitInner ← reachingInner.1.toOption
  let requestInner := Script.request unitInner task.context []
  let (taskInner, _) ← (station (nesting + 1)).entry requestInner reachingInner.2
  let (_, lastInner) ← ((station (nesting + 1)).invokeInSteps requestInner 0 task.context.locals
    []).run.runAlone reachingInner.2
  let endsAlone (machine : Machine) (unit : Callable) (task : Task)
      (body : List Script.Instruction) : Prop :=
    unit.scheduledWorkers = [] ∧ task.context.activity = some (unit, unit.callerWorker) ∧
      bodies.get? (unit.bodyKey unit.callerWorker) = some body ∧
      (machine.endings task.response).length = 1
  if endsAlone last unit task [.call "chain" "inner" [] []] ∧
      endsAlone lastInner unitInner taskInner [.raise "lost"] then
    some (⟨task, unit, unit.callerWorker⟩, ⟨taskInner, unitInner, unitInner.callerWorker⟩)
  else none

/-- A thread that makes one call opens a root, makes the call below it, and releases it. -/
theorem Station.process_callingOnce (station : Station) (machine : Machine)
    (package function : String) :
    (station.callingOnce machine package function).process station.thread =
      some ((openRoot Machine.ownArena Machine.ownProperties).run.bind fun
        | .ok root => (station.callNamedIn root package function []).run.bind fun outcome =>
            root.release.bind fun _ => .done (some outcome)
        | .error interruption => .done (some (.error interruption))) := by
  unfold callingOnce callNamed
  dsimp only
  rw [if_pos rfl, Effect.run_bind, Process.bind_assoc]
  congr 2
  funext opened
  cases opened with
  | error interruption => rfl
  | ok root =>
    dsimp only
    rw [Effect.run_followedBy, Process.bind_assoc]
    rfl

/-- The links of the chain that a host makes alone are those of a trail. -/
theorem Setup.exists_trail_of_chainAlone {setup : Setup}
    {bodies : Table BodyKey (List Script.Instruction)} {nesting : Nat} {machine : Machine}
    {outer inner : Link}
    {arrivals : Arrivals ThreadId Machine (Option (Except Interruption (List Value)))}
    (isChain : setup.chainAlone bodies nesting machine = some (outer, inner))
    (keeps : ((setup.station (Script.interpreter bodies) Session.hostThread (nesting + 2)).callingOnce machine
      "chain" "outer").KeepsBooks arrivals) :
    ∃ crowd root goesOn returned,
      ((setup.station (Script.interpreter bodies) Session.hostThread (nesting + 2)).callingOnce machine "chain"
        "outer").Leads arrivals crowd ∧
      crowd.NamedTrail setup (Script.interpreter bodies) arrivals "lost" Session.hostThread root
        "chain" "outer" [] goesOn [outer, inner] returned := by
  unfold Setup.chainAlone at isChain
  obtain ⟨⟨_, opened⟩, opens, onOpened⟩ := Option.bind_eq_some_iff.mp isChain
  obtain ⟨root, isRoot, onRoot⟩ := Option.bind_eq_some_iff.mp onOpened
  obtain ⟨⟨_, ready⟩, reaches, onReady⟩ := Option.bind_eq_some_iff.mp onRoot
  obtain ⟨⟨unit, source⟩, isReached, onReached⟩ := Option.bind_eq_some_iff.mp onReady
  obtain ⟨⟨task, entered⟩, enters, onEntered⟩ := Option.bind_eq_some_iff.mp onReached
  obtain ⟨⟨answer, last⟩, answers, onLast⟩ := Option.bind_eq_some_iff.mp onEntered
  obtain ⟨⟨_, readyInner⟩, reachesInner, onReadyInner⟩ := Option.bind_eq_some_iff.mp onLast
  obtain ⟨unitInner, isReachedInner, onReachedInner⟩ := Option.bind_eq_some_iff.mp onReadyInner
  obtain ⟨⟨taskInner, enteredInner⟩, entersInner, onEnteredInner⟩ :=
    Option.bind_eq_some_iff.mp onReachedInner
  obtain ⟨⟨answerInner, lastInner⟩, answersInner, onLastInner⟩ :=
    Option.bind_eq_some_iff.mp onEnteredInner
  obtain rfl := Station.eq_ok_of_toOption isRoot
  obtain rfl := Station.eq_ok_of_toOption isReached
  obtain rfl := Station.eq_ok_of_toOption isReachedInner
  obtain ⟨⟨endsOuter, endsInner⟩, isLinks⟩ := Option.ite_none_right_eq_some.mp onLastInner
  obtain ⟨single, isActive, isBody, once⟩ := endsOuter
  obtain ⟨singleInner, isActiveInner, isBodyInner, onceInner⟩ := endsInner
  obtain ⟨rfl, rfl⟩ := Prod.mk.inj (Option.some.inj isLinks)
  have begun := Station.process_callingOnce
    (setup.station (Script.interpreter bodies) Session.hostThread (nesting + 2)) machine "chain" "outer"
  rw [Setup.thread_station] at begun
  obtain ⟨crowd, passesOpen, rfl⟩ :=
    Crowd.exists_passes_of_runAlone begun opens
  let outer : Link := ⟨task, unit, unit.callerWorker⟩
  let inner : Link := ⟨taskInner, unitInner, unitInner.callerWorker⟩
  have makesTrail : ∀ state after, ((setup.station (Script.interpreter bodies) Session.hostThread
      (nesting + 1)).body (Script.interpreter bodies) task).runAlone entered = some (state, after) →
        outer.MakesTrail setup bodies arrivals Session.hostThread (nesting + 1) "lost" [inner] entered
          state after := by
    intro state after ran
    refine Link.makesTrail_of_call isActive isBody ran reachesInner entersInner answersInner ?_ ?_
    · exact fun _ _ => Machine.onlyFails_of_single singleInner isActiveInner onceInner
    · exact fun _ _ => Link.makesTrail_of_raise isActiveInner isBodyInner
  have keepsOpened := keeps.leads passesOpen.leads
  have makesNamed : ∃ returned, crowd.NamedTrail setup (Script.interpreter bodies) arrivals "lost"
      Session.hostThread root "chain" "outer" [] _ [outer, inner] returned :=
    Crowd.exists_namedTrail keepsOpened passesOpen.reached reaches enters answers
      (fun _ _ => Machine.onlyFails_of_single single isActive once) makesTrail
  obtain ⟨returned, trail⟩ := makesNamed
  exact ⟨crowd, root, _, returned, passesOpen.leads, trail⟩

/-! ## The answer of a host -/

/-- The trail of an error names the whole chain of calls, and every worker of it once.  Let any number
of threads of a host make calls by name after the session has started for a loaded manifest, and let
the threads interleave as they may.  One of the hosts calls a unit, a worker of which calls another unit,
and so on down to a worker that raises an error with a message, and no other worker of these calls
fails.  Then the host is answered with the error with this message, without a cause, and with the
frames of exactly these workers, innermost first; on the way the error has been left in the slot of
every one of them, and handed on by all but the innermost. -/
theorem error_crosses_chain {manifest : Manifest} {loaded : Manifest.Loaded}
    (loads : manifest.load = .ok loaded) {setup : Setup} (runs : setup.program = loaded.program)
    (properties : Properties) :
    let scripts := Script.interpreter loaded.bodies
    ∃ session, Session.start setup scripts properties loaded.constantNames = .ok session ∧
      ∀ {Answer : Type} {depth : Nat} {opened crowd returned : Crowd ThreadId Machine (Option Answer)}
        {message : String} {thread : ThreadId} {root : Context} {package function : String}
        {arguments : List Value} {goesOn : Except Interruption (List Value) → Work (Option Answer)}
        {chain : List Link},
        opened.state = session.machine →
        (∀ thread process, opened.process thread = some process →
          (setup.station scripts thread depth).CallsByName process) →
        opened.Leads (setup.Starts scripts depth) crowd →
        crowd.NamedTrail setup scripts (setup.Starts scripts depth) message thread root package
          function arguments goesOn chain returned →
        returned.process thread = some (goesOn (.error (.fault (.propagated
            ⟨⟨message, (chain.map Link.frame).reverse⟩, []⟩)))) ∧
          ∀ outer link inner, chain = outer ++ link :: inner →
            link.Raises returned.state message inner := by
  intro scripts
  obtain ⟨session, starts⟩ := Session.exists_start_of_load loads runs scripts properties
  refine ⟨session, starts, ?_⟩
  intro Answer depth opened crowd returned message thread root package function arguments goesOn chain
    fresh hosts leads trail
  have wellBuilt : setup.program.WellBuilt := by
    rw [runs]
    exact Manifest.program_wellBuilt loads
  have keeps := (Session.keepsBooks starts wellBuilt.sound fresh hosts).leads leads
  exact trail.answers keeps (Setup.station_settlesTasks wellBuilt.sound
    (Script.interpreter_settles loaded.bodies)) wellBuilt

def Manifest.raisingBelow : Manifest where
  globals := {}
  packages := [
    { name := "chain"
      globals := []
      init := none
      functions := [
        ⟨"outer", false, [], [], [⟨defaultWorkerName, {}, [.call "chain" "inner" [] []]⟩]⟩,
        ⟨"inner", false, [], [], [⟨defaultWorkerName, {}, [.raise "lost"]⟩]⟩] }]
  constants := []

def Manifest.framesAlone (manifest : Manifest) : Option (Frame × Frame) :=
  match manifest.load with
  | .error _ => none
  | .ok loaded =>
    let setup : Setup := ⟨loaded.program, .threadPool true Policy.usualThreadName 2, .full⟩
    match Session.start setup (Script.interpreter loaded.bodies) .empty loaded.constantNames with
    | .error _ => none
    | .ok session =>
      (setup.chainAlone loaded.bodies 7 session.machine).map fun links =>
        (links.1.frame, links.2.frame)

/-- A host calls a function that calls another one, which raises an error. -/
theorem error_crosses_chain_of_raisingBelow :
    ∃ loaded, Manifest.raisingBelow.load = .ok loaded ∧
      let setup : Setup := ⟨loaded.program, .threadPool true Policy.usualThreadName 2, .full⟩
      let scripts := Script.interpreter loaded.bodies
      ∃ session, Session.start setup scripts .empty loaded.constantNames = .ok session ∧
        ∃ crowd root goesOn outer inner returned,
          ((setup.station scripts Session.hostThread 9).callingOnce session.machine "chain"
            "outer").Leads (setup.Starts scripts 9) crowd ∧
          crowd.NamedTrail setup scripts (setup.Starts scripts 9) "lost" Session.hostThread root
            "chain" "outer" [] goesOn [outer, inner] returned ∧
          returned.process Session.hostThread = some (goesOn (.error (.fault (.propagated
            ⟨⟨"lost", [⟨"chain", "inner", defaultWorkerName⟩,
              ⟨"chain", "outer", defaultWorkerName⟩]⟩, []⟩)))) ∧
          inner.Raises returned.state "lost" [] ∧ outer.Raises returned.state "lost" [inner] := by
  obtain ⟨loaded, loads⟩ : ∃ loaded, Manifest.raisingBelow.load = .ok loaded := ⟨_, rfl⟩
  refine ⟨loaded, loads, ?_⟩
  intro setup scripts
  obtain ⟨session, starts, crosses⟩ :=
    error_crosses_chain loads (show setup.program = loaded.program from rfl) .empty
  have frames : Manifest.raisingBelow.framesAlone = some (⟨"chain", "outer", defaultWorkerName⟩,
      ⟨"chain", "inner", defaultWorkerName⟩) := by
    decide +kernel
  unfold Manifest.framesAlone at frames
  rw [loads] at frames
  dsimp only at frames
  rw [starts] at frames
  obtain ⟨⟨outer, inner⟩, isChain, isFrames⟩ := Option.map_eq_some_iff.mp frames
  have hosts := setup.callsByName_of_callingOnce scripts 9 session.machine "chain" "outer"
  have keeps := Session.keepsBooks starts (Manifest.program_sound loads) rfl hosts
  obtain ⟨crowd, root, goesOn, returned, leads, trail⟩ :=
    Setup.exists_trail_of_chainAlone isChain keeps
  obtain ⟨isAnswer, raises⟩ := crosses rfl hosts leads trail
  obtain ⟨isOuter, isInner⟩ := Prod.mk.inj isFrames
  refine ⟨session, starts, crowd, root, goesOn, outer, inner, returned, leads, trail, ?_,
    raises [outer] inner [] rfl, raises [] outer [inner] rfl⟩
  rw [isAnswer, List.map_cons, List.map_singleton, isOuter, isInner]
  rfl

end WorkerMachine
