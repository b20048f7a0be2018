import WorkerMachine.Proofs.Failing.Inits
/-!
# Inits of threads that move alone

A thread that is to make sure that a package is initialized, and moves alone, claims the init and goes
through it up to the call of the init unit.  If the init unit fails, or calls into a package whose init
fails, then the thread makes a trail of inits that fail.
-/

namespace WorkerMachine

open Settling

namespace Station

variable {station : Station} {package : Package} {unit : Callable} {caller context : Context}
  {machine opened : Machine}

/-- The context from which a thread that claims the init of a package, and moves alone, calls the init
unit, and the machine as it is then. -/
def enterInit (station : Station) (package : Package) (caller : Context) (machine : Machine) :
    Option (Context × Machine) := do
  let (phase, gated) ← (station.passGate package.name caller.id).runAlone machine
  match phase.answer? with
  | some .claimed => (station.openInit package caller).runAlone gated
  | _ => none

theorem enterInit_cases (enters : station.enterInit package caller machine = some (context, opened)) :
    ∃ phase gated, (station.passGate package.name caller.id).runAlone machine = some (phase, gated) ∧
      phase.answer? = some .claimed ∧
      (station.openInit package caller).runAlone gated = some (context, opened) := by
  unfold enterInit at enters
  obtain ⟨⟨phase, gated⟩, passes, entersOpen⟩ := Option.bind_eq_some_iff.mp enters
  dsimp only at entersOpen
  split at entersOpen
  · next claims => exact ⟨phase, gated, passes, claims, entersOpen⟩
  · cases entersOpen

/-- The fault that a call is answered with once its workers have ended. -/
def answeredFault? : Except Interruption (Except Interruption Unit × RegisterFile) → Option Fault
  | .ok (.error (.fault fault), _) => some fault
  | _ => none

theorem endsCall_of_answeredFault {fault : Fault}
    {answer : Except Interruption (Except Interruption Unit × RegisterFile)}
    (isAnswer : answeredFault? answer = some fault) : fault.EndsCall answer := by
  unfold answeredFault? at isAnswer
  split at isAnswer
  · cases isAnswer
    exact .joined _
  · cases isAnswer

def initInSteps (station : Station) (package : Package) (unit : Callable) (context : Context) :
    Work (Except Interruption Unit) :=
  (station.invokeInSteps (Script.request unit context []) 0 context.locals []).run.bind
    (station.concludeInit package context)

/-- A thread that claims the init of a package, and moves alone, goes on with the init as it would from
the call of the init unit on. -/
theorem runAlone_ensureInitialized (isInit : package.init = some unit)
    (enters : station.enterInit package caller machine = some (context, opened)) :
    (station.ensureInitialized package caller).run.runAlone machine =
      (station.initInSteps package unit context).runAlone opened := by
  obtain ⟨phase, gated, passes, claims, opens⟩ := enterInit_cases enters
  rw [ensureInitialized_eq, Process.runAlone_bind, passes]
  dsimp only [Option.bind]
  rw [claims]
  dsimp only
  rw [run_runInit_bind isInit, Process.runAlone_bind, opens]
  rfl

end Station

section Inits

variable {Answer : Type} {arrivals : Arrivals ThreadId Machine (Option Answer)} {setup : Setup}
  {bodies : Table BodyKey (List Script.Instruction)} {nesting : Nat} {link next : InitLink}
  {inner : List InitLink} {unit callee : Callable} {task : Task} {last : Package} {ending : Fault}
  {crowd : Crowd ThreadId Machine (Option Answer)} {machine opened entered returned after : Machine}
  {goesOn : Except Interruption Unit → Work (Option Answer)} {outcome : Except Interruption Unit}
  {answer : Except Interruption (Except Interruption Unit × RegisterFile)}

/-- A thread that moves alone enters the init that it claims, and what it does from there on is the end
of what it has begun. -/
theorem Crowd.exists_entersInit (arrivals : Arrivals ThreadId Machine (Option Answer))
    {station : Station}
    (begun : crowd.process station.thread =
      some ((station.ensureInitialized link.package link.caller).run.bind goesOn))
    (isFound : ∃ name, station.program.package name = .ok link.package)
    (isInit : link.package.init = some unit)
    (enters : station.enterInit link.package link.caller crowd.state = some (link.context, opened)) :
    ∃ entered : Crowd ThreadId Machine (Option Answer),
      crowd.EntersInit arrivals station link unit goesOn entered ∧ entered.state = opened ∧
      entered.process station.thread =
        some ((station.initInSteps link.package unit link.context).bind goesOn) ∧
      ∀ {outcome : Except Interruption Unit} {left : Crowd ThreadId Machine (Option Answer)},
        Passes arrivals station.thread goesOn outcome left
          (station.initInSteps link.package unit link.context) entered →
        Passes arrivals station.thread goesOn outcome left
          (station.ensureInitialized link.package link.caller).run crowd := by
  obtain ⟨phase, gated, passesAlone, claims, opens⟩ := Station.enterInit_cases enters
  have begunGate := begun
  rw [Station.ensureInitialized_eq, Process.bind_assoc] at begunGate
  obtain ⟨claimed, passesGate, rfl⟩ : ∃ claimed, Passes arrivals station.thread _ phase claimed _ crowd ∧
      claimed.state = gated :=
    exists_passes_of_runAlone begunGate passesAlone
  have begunInit := passesGate.reached
  rw [claims] at begunInit
  dsimp only at begunInit
  rw [Station.run_runInit_bind isInit, Process.bind_assoc] at begunInit
  obtain ⟨entered, passesOpen, isOpened⟩ := exists_passes_of_runAlone begunInit opens
  refine ⟨entered, ⟨begun, isFound, isInit, claimed, _, ⟨phase, _, claims, passesGate⟩, passesOpen⟩,
    isOpened, passesOpen.reached, fun passes => ?_⟩
  rw [Station.ensureInitialized_eq]
  apply passesGate.append
  rw [claims]
  dsimp only
  rw [Station.run_runInit_bind isInit]
  exact passesOpen.append passes

/-- A thread that is to initialize the package of a link, in a state of the machine, makes a trail of
inits that fail, and the package then has an outcome in another state of the machine. -/
def InitLink.MakesTrail (setup : Setup) (bodies : Table BodyKey (List Script.Instruction))
    (arrivals : Arrivals ThreadId Machine (Option Answer)) (last : Package) (ending : Fault)
    (thread : ThreadId) (nesting : Nat) (link : InitLink) (inner : List InitLink) (machine : Machine)
    (outcome : Except Interruption Unit) (after : Machine) : Prop :=
  let scripts := Script.interpreter bodies
  let init := ((setup.station scripts thread nesting).ensureInitialized link.package link.caller).run
  ∀ (crowd : Crowd ThreadId Machine (Option Answer))
    (goesOn : Except Interruption Unit → Work (Option Answer)),
    crowd.KeepsBooks arrivals → crowd.state = machine →
    crowd.process thread = some (init.bind goesOn) →
    ∃ left, crowd.InitTrail setup scripts arrivals last ending thread goesOn outcome (link :: inner)
        left ∧
      Crowd.Passes arrivals thread goesOn outcome left init crowd ∧ left.state = after

variable {thread : ThreadId} (isFound : ∃ name, setup.program.package name = .ok link.package)
  (isInit : link.package.init = some unit)

include isFound isInit

theorem InitLink.makesTrail_of_ends
    (enters : (setup.station (Script.interpreter bodies) thread nesting).enterInit link.package
      link.caller machine = some (link.context, opened))
    (answers : ((setup.station (Script.interpreter bodies) thread nesting).invokeInSteps
      (Script.request unit link.context []) 0 link.context.locals []).run.runAlone opened =
        some (answer, returned))
    (ends : ending.EndsCall answer) (notFatal : ending.isFatal = false)
    (ran : ((setup.station (Script.interpreter bodies) thread nesting).ensureInitialized link.package
      link.caller).run.runAlone machine = some (outcome, after)) :
    link.MakesTrail setup bodies arrivals link.package ending thread nesting [] machine outcome
      after := by
  unfold MakesTrail
  intro scripts init crowd goesOn _ isMachine begun
  subst isMachine
  have isThread := setup.thread_station scripts thread nesting
  have program := setup.program_station scripts thread nesting
  obtain ⟨entered, entersInit, rfl, begunUnit, passesOn⟩ :=
    Crowd.exists_entersInit arrivals (by rwa [isThread]) (by rwa [program]) isInit enters
  unfold Station.initInSteps at begunUnit
  rw [isThread, Process.bind_assoc] at begunUnit
  obtain ⟨atReturned, passesUnit, rfl⟩ := Crowd.exists_passes_of_runAlone begunUnit answers
  rw [Station.runAlone_ensureInitialized isInit enters] at ran
  unfold Station.initInSteps at ran
  rw [Process.runAlone_bind, answers] at ran
  obtain ⟨left, passesEnd, isAfter⟩ := Crowd.exists_passes_of_runAlone passesUnit.reached ran
  rw [isThread] at passesOn
  exact ⟨left, .ended rfl rfl entersInit passesUnit ends notFatal passesEnd,
    passesOn (passesUnit.append passesEnd), isAfter⟩

theorem InitLink.makesTrail_of_call {worker : Worker} {name function : String}
    {arguments returns : List Nat} {instructions : List Script.Instruction}
    (enters : (setup.station (Script.interpreter bodies) thread (nesting + 1)).enterInit link.package
      link.caller machine = some (link.context, opened))
    (entersUnit : (setup.station (Script.interpreter bodies) thread (nesting + 1)).entry
      (Script.request unit link.context []) opened = some (task, entered))
    (answers : ((setup.station (Script.interpreter bodies) thread (nesting + 1)).invokeInSteps
      (Script.request unit link.context []) 0 link.context.locals []).run.runAlone opened =
        some (answer, returned))
    (isCaller : next.caller = task.context)
    (isActive : task.context.activity = some (unit, worker))
    (isBody : bodies.get? (unit.bodyKey worker) =
      some (.call name function arguments returns :: instructions))
    (isPackage : setup.program.package name = .ok next.package)
    (isFunction : Program.function next.package name function = .ok callee)
    (enough : returns.length ≤ callee.returns.length)
    (makes : ∀ reached failed,
      ((setup.station (Script.interpreter bodies) thread nesting).ensureInitialized next.package
        next.caller).run.runAlone entered = some (reached, failed) →
      next.MakesTrail setup bodies arrivals last ending thread nesting inner entered reached failed)
    (only : ∀ exit left, .ended task exit left ∈ returned.history → returned.OnlyFails unit task)
    (ran : ((setup.station (Script.interpreter bodies) thread (nesting + 1)).ensureInitialized
      link.package link.caller).run.runAlone machine = some (outcome, after)) :
    link.MakesTrail setup bodies arrivals last ending thread (nesting + 1) (next :: inner) machine
      outcome after := by
  unfold MakesTrail
  intro scripts init crowd goesOn keeps isMachine begun
  subst isMachine
  have isThread := setup.thread_station scripts thread (nesting + 1)
  have program := setup.program_station scripts thread
  obtain ⟨atOpened, entersInit, rfl, begunUnit, passesOn⟩ :=
    Crowd.exists_entersInit arrivals (by rwa [isThread]) (by rwa [program]) isInit enters
  unfold Station.initInSteps at begunUnit
  rw [isThread, Process.bind_assoc] at begunUnit
  obtain ⟨atEntered, goesOnWorker, state, afterBody, leadsEntered, isEntered, begunBody, ranBody,
    returnsFrom⟩ := Crowd.exists_calls rfl begunUnit entersUnit answers
  have keepsEntered := (keeps.leads entersInit.leads).leads leadsEntered
  have isScript : (setup.station scripts thread nesting).body scripts task = _ :=
    Script.body_eq isActive isBody
  have isPackageInside : (setup.station scripts thread nesting).program.package name =
      .ok next.package := by
    rwa [program]
  have isGate : (setup.station scripts thread nesting).finishBody task
      (.call name function arguments returns :: instructions) task.context = _ :=
    Station.finishBody_eq_gate isPackageInside isFunction enough ..
  rw [isScript, isGate, ← isCaller, Process.runAlone_bind] at ranBody
  obtain ⟨⟨reached, failed⟩, ranGate, ranOn⟩ := Option.bind_eq_some_iff.mp ranBody
  have begunGate := begunBody
  rw [isScript, isGate, Process.bind_assoc, ← isCaller] at begunGate
  obtain ⟨atFailed, trail, passesGate, rfl⟩ :=
    makes reached failed ranGate atEntered _ keepsEntered isEntered begunGate
  obtain ⟨atLeft, passesLeft, isLeft⟩ := Crowd.exists_passes_of_runAlone passesGate.reached ranOn
  have passesBody : Crowd.Passes arrivals thread goesOnWorker state atLeft
      ((setup.station scripts thread nesting).body scripts task) atEntered := by
    rw [isScript, isGate, ← isCaller]
    exact passesGate.append passesLeft
  obtain ⟨atReturned, calls, leadsReturned, rfl⟩ := returnsFrom isLeft passesBody
  obtain ⟨exit, ended, isEnded⟩ := keepsEntered.exists_ended passesBody
  have isOnly := only exit ended ((keepsEntered.leads passesBody.leads).history leadsReturned isEnded)
  rw [Station.runAlone_ensureInitialized isInit enters] at ran
  unfold Station.initInSteps at ran
  rw [Process.runAlone_bind, answers] at ran
  obtain ⟨left, passesEnd, isAfter⟩ := Crowd.exists_passes_of_runAlone calls.passes.reached ran
  rw [isThread] at passesOn
  rw [isScript, ← isCaller] at begunBody
  exact ⟨left, .called rfl entersInit calls leadsEntered rfl begunBody isPackageInside isFunction enough
    trail passesLeft leadsReturned isOnly passesEnd, passesOn (calls.passes.append passesEnd), isAfter⟩

end Inits

end WorkerMachine
