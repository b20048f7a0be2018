import WorkerMachine.Proofs.Failing.Trails
import WorkerMachine.Proofs.Process.Alone
/-!
# Calls of threads that move alone

A thread that makes a call and moves alone runs the first worker of the unit itself, so that it enters
the body of this worker.  If the body leaves the machine as it would alone, then the call answers as it
would alone.
-/

namespace WorkerMachine

open Settling

namespace Station

/-- The task with which a thread that makes a call, and moves alone, enters the body of the first worker,
and the machine as it is then. -/
def entry (station : Station) (request : Request) (machine : Machine) : Option (Task × Machine) := do
  let opening ← request.openResponse.run.runAlone machine
  let response ← opening.1.toOption
  let making ← (station.makeTasks (request.docket []) response).run.runAlone opening.2
  let invocation ← making.1.toOption
  let task ← invocation.callerTask
  let suspending := Machine.suspendParent invocation.parent making.2
  let _ ← suspending.1.toOption
  let starting := Machine.startTask task
    { suspending.2 with tallies := suspending.2.tallies.addInCaller }
  let _ ← starting.1.toOption
  if task.response = response then some (task, starting.2) else none

def body (station : Station) (interpreter : Interpreter) (task : Task) :
    Work (Except Interruption ContextState) :=
  ((interpreter station).runOn task.context).bind fun ended => (task.conclude ended).run

variable {station : Station} {interpreter : Interpreter} {task : Task} {machine middle later : Machine}
  {invocation : Invocation} {request : Request} {target : RegisterFile} {indices : List Nat}

theorem eq_ok_of_toOption {Failure Answer : Type} {outcome : Except Failure Answer} {answer : Answer}
    (isOk : outcome.toOption = some answer) : outcome = .ok answer := by
  cases outcome <;> cases isOk
  rfl

/-- A call that enters the body of the first worker has opened its response, made its tasks, marked its
parent and started the task of the worker. -/
theorem entry_cases (enters : station.entry request machine = some (task, later)) :
    ∃ opened made suspended invocation state,
      request.openResponse.run.runAlone machine = some (.ok task.response, opened) ∧
      (station.makeTasks (request.docket []) task.response).run.runAlone opened =
        some (.ok invocation, made) ∧
      invocation.callerTask = some task ∧
      Machine.suspendParent invocation.parent made = (.ok (), suspended) ∧
      Machine.startTask task { suspended with tallies := suspended.tallies.addInCaller } =
        (.ok state, later) := by
  unfold entry at enters
  obtain ⟨⟨_, opened⟩, opens, entersOpened⟩ := Option.bind_eq_some_iff.mp enters
  obtain ⟨response, isResponse, entersResponse⟩ := Option.bind_eq_some_iff.mp entersOpened
  obtain ⟨⟨_, made⟩, makes, entersMade⟩ := Option.bind_eq_some_iff.mp entersResponse
  obtain ⟨invocation, isInvocation, entersInvocation⟩ := Option.bind_eq_some_iff.mp entersMade
  obtain ⟨own, kept, entersTask⟩ := Option.bind_eq_some_iff.mp entersInvocation
  obtain ⟨_, isSuspended, entersSuspended⟩ := Option.bind_eq_some_iff.mp entersTask
  obtain ⟨state, isStarted, entersStarted⟩ := Option.bind_eq_some_iff.mp entersSuspended
  obtain rfl := eq_ok_of_toOption isResponse
  obtain rfl := eq_ok_of_toOption isInvocation
  split at entersStarted
  · next sameResponse =>
    cases entersStarted
    subst sameResponse
    exact ⟨opened, made, _, invocation, state, opens, makes, kept,
      Prod.ext (eq_ok_of_toOption isSuspended) rfl, Prod.ext (eq_ok_of_toOption isStarted) rfl⟩
  · cases entersStarted

theorem enters_carryOut {state : ContextState}
    (starts : Machine.startTask task machine = (.ok state, later)) :
    Process.Enters (station.body interpreter task) later (station.carryOut interpreter task).run
      machine := by
  rw [carryOut_eq, Effect.run_followedBy]
  apply Process.Enters.bind
  rw [Effect.run_bind]
  have ran : (Effect.atomically (Machine.startTask task)).run.runAlone machine =
      some (.ok (.ok state), later) := by
    have started : (Effect.atomically (Machine.startTask task)).run.runAlone machine =
        some (.ok (Machine.startTask task machine).1, (Machine.startTask task machine).2) :=
      rfl
    rw [started, starts]
  apply Process.Enters.of_runAlone ran
  dsimp only
  rw [Effect.run_work_bind]
  exact .self _ _

/-- Joining a call enters what running the task enters that is kept with its handle. -/
theorem enters_join {Entered : Type} {part : Work Entered}
    (kept : invocation.callerTask = some task)
    (suspends : Machine.suspendParent invocation.parent machine = (.ok (), middle))
    (enters : Process.Enters part later (station.runTask task).run
      { middle with tallies := middle.tallies.addInCaller }) :
    Process.Enters part later (station.join invocation target indices) machine := by
  rw [join_eq]
  have ran : (Process.atomically (Machine.suspendParent invocation.parent)).runAlone machine =
      some (.ok (), middle) := by
    rw [Process.runAlone_atomically, suspends]
  apply Process.Enters.of_runAlone ran
  apply Process.Enters.bind
  apply Process.Enters.bind
  unfold settle runFirst runInCaller
  rw [kept, Effect.run_bind]
  apply Process.Enters.bind
  dsimp only
  rw [Effect.run_bind]
  have tallied : (tally Tallies.addInCaller).run.runAlone middle =
      some (.ok (), { middle with tallies := middle.tallies.addInCaller }) :=
    rfl
  apply Process.Enters.of_runAlone tallied
  dsimp only
  rw [Effect.run_bind]
  apply Process.Enters.bind
  rw [Effect.run_bind]
  exact enters.bind _

/-- The worker whose body a call enters has started. -/
theorem started_of_entry (enters : station.entry request machine = some (task, later)) :
    .started task ∈ later.history := by
  obtain ⟨_, _, _, _, state, _, _, _, _, starts⟩ := entry_cases enters
  unfold Machine.startTask at starts
  split at starts
  · cases starts
    exact List.mem_cons_self
  · cases starts

section Entries

variable {setup : Setup} {thread : ThreadId} {nesting : Nat}

/-- A call whose response has been opened enters the body of the first worker. -/
theorem enters_goOnInSteps {opened made suspended : Machine} {state : ContextState}
    (makes : ((setup.station interpreter thread (nesting + 1)).makeTasks (request.docket [])
      task.response).run.runAlone opened = some (.ok invocation, made))
    (kept : invocation.callerTask = some task)
    (suspends : Machine.suspendParent invocation.parent made = (.ok (), suspended))
    (starts : Machine.startTask task { suspended with tallies := suspended.tallies.addInCaller } =
      (.ok state, later)) :
    Process.Enters ((setup.station interpreter thread nesting).body interpreter task) later
      ((setup.station interpreter thread (nesting + 1)).goOnInSteps request 0 target indices
        task.response).run opened := by
  rw [run_goOnInSteps_zero]
  apply Process.Enters.of_runAlone makes
  apply Process.Enters.bind
  exact enters_join kept suspends (enters_carryOut starts)

/-- A call enters the body of the first worker. -/
theorem enters_invokeInSteps (enters : (setup.station interpreter thread (nesting + 1)).entry request
      machine = some (task, later)) :
    Process.Enters ((setup.station interpreter thread nesting).body interpreter task) later
      ((setup.station interpreter thread (nesting + 1)).invokeInSteps request 0 target
        indices).run machine := by
  obtain ⟨_, _, _, _, _, opens, makes, kept, suspends, starts⟩ := entry_cases enters
  rw [invokeInSteps_eq, Effect.run_bind]
  exact Process.Enters.of_runAlone opens (enters_goOnInSteps makes kept suspends starts)

end Entries

end Station

theorem Crowd.Passes.append_ok {Answer First Second : Type}
    {arrivals : Arrivals ThreadId Machine (Option Answer)} {thread : ThreadId}
    {crowd between later : Crowd ThreadId Machine (Option Answer)} {effect : Effect First}
    {next : First → Effect Second} {follow : Except Interruption Second → Work (Option Answer)}
    {followFirst : Except Interruption First → Work (Option Answer)} {first : First}
    {outcome : Except Interruption Second}
    (goesOn : ∀ first, followFirst (.ok first) = (next first).run.bind follow)
    (breaksOff : ∀ interruption, followFirst (.error interruption) = follow (.error interruption))
    (passes : Crowd.Passes arrivals thread followFirst (.ok first) between effect.run crowd)
    (passesOn : Crowd.Passes arrivals thread follow outcome later (next first).run between) :
    Crowd.Passes arrivals thread follow outcome later (effect >>= next).run crowd := by
  rw [Effect.run_bind]
  refine Crowd.Passes.append (passes.congr fun ended => ?_) passesOn
  cases ended with
  | ok first => exact goesOn first
  | error interruption => exact breaksOff interruption

section Calls

variable {Answer : Type} {arrivals : Arrivals ThreadId Machine (Option Answer)} {setup : Setup}
  {interpreter : Interpreter} {thread : ThreadId} {nesting : Nat} {request : Request}
  {target : RegisterFile} {indices : List Nat} {task : Task} {later last : Machine}
  {crowd : Crowd ThreadId Machine (Option Answer)}
  {follow : Except Interruption (Except Interruption Unit × RegisterFile) → Work (Option Answer)}
  {answer : Except Interruption (Except Interruption Unit × RegisterFile)}

/-- A thread that makes a call and moves alone enters the body of the first worker.  When it leaves the
body, and the machine is as the thread alone would have left it, the call goes on to the answer that it
would have had alone. -/
theorem Crowd.exists_calls {station : Station}
    (isStation : station = setup.station interpreter thread (nesting + 1))
    (begun : crowd.process thread =
      some ((station.invokeInSteps request 0 target indices).run.bind follow))
    (enters : station.entry request crowd.state = some (task, later))
    (ran : (station.invokeInSteps request 0 target indices).run.runAlone crowd.state =
      some (answer, last)) :
    let body := (setup.station interpreter thread nesting).body interpreter task
    ∃ (entered : Crowd ThreadId Machine (Option Answer))
      (goesOn : Except Interruption ContextState → Work (Option Answer))
      (state : Except Interruption ContextState) (after : Machine),
      crowd.Leads arrivals entered ∧ entered.state = later ∧
      entered.process thread = some (body.bind goesOn) ∧
      body.runAlone later = some (state, after) ∧
      ∀ {left : Crowd ThreadId Machine (Option Answer)}, left.state = after →
        Passes arrivals thread goesOn state left body entered →
        ∃ returned, crowd.Calls arrivals station request target indices task follow answer returned ∧
          left.Leads arrivals returned ∧ returned.state = last := by
  intro body
  obtain ⟨openedState, made, suspended, invocation, state, opens, makes, kept, suspends, starts⟩ :=
    Station.entry_cases enters
  subst isStation
  rw [Station.invokeInSteps_eq, Effect.run_bind, Process.bind_assoc] at begun
  obtain ⟨opened, passesOpen, rfl⟩ := exists_passes_of_runAlone begun opens
  rw [Station.invokeInSteps_eq, Effect.run_bind, Process.runAlone_bind, opens] at ran
  have entersBody : Process.Enters body later ((setup.station interpreter thread
      (nesting + 1)).goOnInSteps request 0 target indices task.response).run opened.state :=
    Station.enters_goOnInSteps makes kept suspends starts
  obtain ⟨entered, goesOn, left, after, leads, isLater, isLeft, ranBody, returns⟩ :=
    exists_entered passesOpen.reached entersBody ran
  refine ⟨entered, goesOn, left, after, passesOpen.leads.trans leads, isLater, isLeft, ranBody, ?_⟩
  intro leaves isAfter passesBody
  obtain ⟨returned, passes, leadsReturned, isLast⟩ := returns isAfter passesBody
  refine ⟨returned, ⟨opened, passesOpen.congr fun outcome => ?_, passes⟩, leadsReturned, isLast⟩
  cases outcome with
  | ok response => exact rfl
  | error interruption => exact rfl

theorem Crowd.Calls.passes {station : Station} {returned : Crowd ThreadId Machine (Option Answer)}
    (calls : crowd.Calls arrivals station request target indices task follow answer returned) :
    Crowd.Passes arrivals station.thread follow answer returned
      (station.invokeInSteps request 0 target indices).run crowd := by
  obtain ⟨opened, passesOpen, passes⟩ := calls
  rw [Station.invokeInSteps_eq]
  exact passesOpen.append_ok (fun _ => rfl) (fun _ => rfl) passes

end Calls

/-! ## Trails of threads that move alone -/

theorem Script.body_eq {station : Station} {bodies : Table BodyKey (List Script.Instruction)}
    {task : Task} {unit : Callable} {worker : Worker} {instructions : List Script.Instruction}
    (isActive : task.context.activity = some (unit, worker))
    (isBody : bodies.get? (unit.bodyKey worker) = some instructions) :
    station.body (interpreter bodies) task =
      station.finishBody task instructions task.context := by
  unfold Station.body Station.finishBody
  rw [runOn_interpreter station isActive isBody]

section Trails

variable {Answer : Type} {setup : Setup} {bodies : Table BodyKey (List Script.Instruction)}
  {arrivals : Arrivals ThreadId Machine (Option Answer)} {thread : ThreadId} {nesting : Nat}
  {message : String} {link next : Link} {inner : List Link} {machine after : Machine}
  {state : Except Interruption ContextState} {instructions : List Script.Instruction}

/-- A thread that enters the body of a link in a state of the machine makes a trail, and has then left
the body in another state of the machine. -/
def Link.MakesTrail (setup : Setup) (bodies : Table BodyKey (List Script.Instruction))
    (arrivals : Arrivals ThreadId Machine (Option Answer)) (thread : ThreadId) (nesting : Nat)
    (message : String) (link : Link) (inner : List Link) (machine : Machine)
    (state : Except Interruption ContextState) (after : Machine) : Prop :=
  let scripts := Script.interpreter bodies
  let body := (setup.station scripts thread nesting).body scripts link.task
  ∀ (crowd : Crowd ThreadId Machine (Option Answer))
    (goesOn : Except Interruption ContextState → Work (Option Answer)),
    crowd.KeepsBooks arrivals → crowd.state = machine →
    crowd.process thread = some (body.bind goesOn) →
    ∃ left, crowd.Trail setup scripts arrivals message (link :: inner) left ∧
      Crowd.Passes arrivals thread goesOn state left body crowd ∧ left.state = after

theorem Link.makesTrail_of_raise
    (isActive : link.task.context.activity = some (link.unit, link.worker))
    (isBody : bodies.get? (link.unit.bodyKey link.worker) = some (.raise message :: instructions))
    (ran : ((setup.station (Script.interpreter bodies) thread nesting).body
      (Script.interpreter bodies) link.task).runAlone machine = some (state, after)) :
    link.MakesTrail setup bodies arrivals thread nesting message [] machine state after := by
  unfold MakesTrail
  intro scripts body crowd goesOn _ isMachine begun
  subst isMachine
  obtain ⟨left, passes, isAfter⟩ := Crowd.exists_passes_of_runAlone begun ran
  refine ⟨left, ?_, passes, isAfter⟩
  have isScript : body = _ := Script.body_eq isActive isBody
  rw [isScript] at passes
  exact .raised rfl isActive passes

theorem Crowd.KeepsBooks.exists_ended {station : Station} {interpreter : Interpreter} {task : Task}
    {crowd left : Crowd ThreadId Machine (Option Answer)}
    {goesOn : Except Interruption ContextState → Work (Option Answer)}
    (keeps : crowd.KeepsBooks arrivals)
    (passes : Crowd.Passes arrivals thread goesOn state left (station.body interpreter task) crowd) :
    ∃ exit after, .ended task exit after ∈ left.state.history := by
  obtain ⟨⟨exit, after⟩, between, passesBody, passesEnd⟩ := passes.exists_between
  exact ⟨exit, after, (keeps.leads passesBody.leads).ended_of_concluded passesEnd⟩

theorem Link.makesTrail_of_call {package function : String} {arguments returns : List Nat}
    {ready entered last : Machine}
    {answer : Except Interruption (Except Interruption Unit × RegisterFile)}
    (isActive : link.task.context.activity = some (link.unit, link.worker))
    (isBody : bodies.get? (link.unit.bodyKey link.worker) =
      some (.call package function arguments returns :: instructions))
    (ran : ((setup.station (Script.interpreter bodies) thread (nesting + 1)).body
      (Script.interpreter bodies) link.task).runAlone machine = some (state, after))
    (reaches : (Script.reachCall (setup.station (Script.interpreter bodies) thread (nesting + 1))
      link.task.context package function returns).run.runAlone machine = some (.ok next.unit, ready))
    (enters : (setup.station (Script.interpreter bodies) thread (nesting + 1)).entry
      (Script.request next.unit link.task.context arguments) ready = some (next.task, entered))
    (answers : ((setup.station (Script.interpreter bodies) thread (nesting + 1)).invokeInSteps
      (Script.request next.unit link.task.context arguments) 0 link.task.context.locals
      returns).run.runAlone ready = some (answer, last))
    (only : ∀ exit left, .ended next.task exit left ∈ last.history →
      last.OnlyFails next.unit next.task)
    (makes : ∀ state after, ((setup.station (Script.interpreter bodies) thread nesting).body
      (Script.interpreter bodies) next.task).runAlone entered = some (state, after) →
      next.MakesTrail setup bodies arrivals thread nesting message inner entered state after) :
    link.MakesTrail setup bodies arrivals thread (nesting + 1) message (next :: inner) machine state
      after := by
  unfold MakesTrail
  intro scripts body crowd goesOn keeps isMachine begun
  subst isMachine
  have isScript : body = _ := Script.body_eq isActive isBody
  have isCall := isScript.trans (Station.finishBody_call ..)
  have begunReach := begun
  rw [isCall, Process.bind_assoc] at begunReach
  obtain ⟨atReady, passesReach, rfl⟩ := Crowd.exists_passes_of_runAlone begunReach reaches
  have begunCall := passesReach.reached
  dsimp only at begunCall
  rw [Process.bind_assoc] at begunCall
  obtain ⟨atEntered, goesOnNext, stateNext, afterNext, leadsEntered, isEntered, begunNext, ranNext,
    returns⟩ := Crowd.exists_calls rfl begunCall enters answers
  have keepsEntered := (keeps.leads passesReach.leads).leads leadsEntered
  obtain ⟨left, trail, passesNext, isLeft⟩ :=
    makes stateNext afterNext ranNext atEntered goesOnNext keepsEntered isEntered begunNext
  obtain ⟨returned, calls, leadsReturned, rfl⟩ := returns isLeft passesNext
  obtain ⟨exit, ended, isEnded⟩ := keepsEntered.exists_ended passesNext
  have keepsLeft := keepsEntered.leads passesNext.leads
  -- Alone, the body would have gone on from here to its end.
  have ranOn : body.runAlone crowd.state = some (state, after) := ran
  rw [isCall, Process.runAlone_bind, reaches] at ranOn
  dsimp only [Option.bind] at ranOn
  rw [Process.runAlone_bind, answers] at ranOn
  obtain ⟨later, passesFinish, isAfter⟩ :=
    Crowd.exists_passes_of_runAlone calls.passes.reached ranOn
  refine ⟨later, ?_, ?_, isAfter⟩
  · rw [isScript] at begun
    exact .called rfl isActive begun passesReach calls leadsEntered trail leadsReturned
      (only exit ended (keepsLeft.history leadsReturned isEnded)) passesFinish
  · rw [isCall]
    apply passesReach.append
    dsimp only
    exact calls.passes.append passesFinish

end Trails

end WorkerMachine
