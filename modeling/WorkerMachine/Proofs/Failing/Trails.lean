import WorkerMachine.Proofs.Failing.Bodies
/-!
# Trails of errors

A worker raises an error, or calls a unit one of whose workers does, and so on: the calls make up a
chain.  The error comes up the chain by two ways at once, as it is left in the error slot of each
caller and handed on by its body.  Still every worker of the chain adds its frame once.
-/

namespace WorkerMachine

open Settling

/-- A worker of a unit in a chain of calls, and the task that it is run by. -/
structure Link where
  task : Task
  unit : Callable
  worker : Worker

namespace Link

def frame (link : Link) : Frame :=
  ⟨link.unit.package, link.unit.name, link.worker.name⟩

/-- The error with a message that has crossed a chain of links, the outermost of which is in front. -/
def crossed (message : String) (chain : List Link) : ErrorValue :=
  ⟨⟨message, (chain.map frame).reverse⟩, []⟩

/-- How a link has ended that the error has come to through the inner links: the error has been left
in the slot of the link, and handed on if it came from a call, and the link raises it with a frame
more. -/
def Raises (link : Link) (machine : Machine) (message : String) (inner : List Link) : Prop :=
  ∃ exit after, .ended link.task exit after ∈ machine.history ∧
    after.error = some (crossed message inner) ∧
    (inner ≠ [] → exit = .error (.fault (.propagated (crossed message inner)))) ∧
    judge after exit = .raised (crossed message (link :: inner))

theorem addFrame_crossed {link : Link} {context : Context}
    (isActive : context.activity = some (link.unit, link.worker)) (message : String)
    (inner : List Link) :
    context.addFrame (crossed message inner) = crossed message (link :: inner) := by
  unfold Context.addFrame Context.frame? ErrorValue.pushFrame crossed
  rw [isActive, List.map_cons, List.reverse_cons]
  rfl

end Link

/-- Carry out what is left of the body of a task, and conclude the task. -/
def Station.finishBody (station : Station) (task : Task) (instructions : List Script.Instruction)
    (context : Context) : Work (Except Interruption ContextState) :=
  ((Script.carryOutAll station instructions).runOn context).bind fun ended =>
    (task.conclude ended).run

/-- Go on after a call that the body of a task has made, and conclude the task. -/
def Station.finishCall (station : Station) (task : Task) (instructions : List Script.Instruction)
    (context : Context) (answer : Except Interruption (Except Interruption Unit × RegisterFile)) :
    Work (Except Interruption ContextState) :=
  (Script.goOn station instructions (context.receiveStepwise answer)).bind fun ended =>
    (task.conclude ended).run

/-- A task whose body makes a call reaches the unit, makes the call, and goes on after it. -/
theorem Station.finishBody_call (station : Station) (task : Task) (package function : String)
    (arguments returns : List Nat) (instructions : List Script.Instruction) (context : Context) :
    station.finishBody task (.call package function arguments returns :: instructions) context =
      (Script.reachCall station context package function returns).run.bind fun
        | .ok unit =>
          (station.invokeInSteps (Script.request unit context arguments) 0 context.locals
            returns).run.bind (station.finishCall task instructions context)
        | .error interruption => (task.conclude (.error interruption, context)).run := by
  unfold finishBody
  rw [Script.runOn_callFirst, Process.bind_assoc]
  congr 1
  funext reached
  cases reached with
  | error interruption => rfl
  | ok unit => exact Process.bind_assoc _ _ _

variable {Answer : Type} {arrivals : Arrivals ThreadId Machine (Option Answer)}

/-- A chain of calls, the outermost link of which is in front, from a crowd in which the first link is
about to make its call until the crowd in which it has ended.  The last link raises an error with a
message.  Every other link calls the unit of the next one, and of the workers of that call only the
next link has failed when the call returns. -/
inductive Crowd.Trail (setup : Setup) (interpreter : Interpreter)
    (arrivals : Arrivals ThreadId Machine (Option Answer)) (message : String) :
    Crowd ThreadId Machine (Option Answer) → List Link →
      Crowd ThreadId Machine (Option Answer) → Prop
  | raised {crowd later : Crowd ThreadId Machine (Option Answer)} {link : Link} {thread : ThreadId}
      {nesting : Nat} {station : Station} {context : Context}
      {instructions : List Script.Instruction}
      {goesOn : Except Interruption ContextState → Work (Option Answer)}
      {left : Except Interruption ContextState} :
      station = setup.station interpreter thread nesting →
      context.activity = some (link.unit, link.worker) →
      Passes arrivals thread goesOn left later
        (station.finishBody link.task (.raise message :: instructions) context) crowd →
      Trail setup interpreter arrivals message crowd [link] later
  | called {crowd ready begun ended returned later : Crowd ThreadId Machine (Option Answer)}
      {link next : Link} {inner : List Link} {thread : ThreadId} {nesting : Nat}
      {station : Station} {context : Context} {package function : String}
      {arguments returns : List Nat} {instructions : List Script.Instruction}
      {goesOn : Except Interruption ContextState → Work (Option Answer)}
      {follow : Except Interruption Callable → Work (Option Answer)}
      {answer : Except Interruption (Except Interruption Unit × RegisterFile)}
      {left : Except Interruption ContextState} :
      station = setup.station interpreter thread nesting →
      context.activity = some (link.unit, link.worker) →
      crowd.process thread = some ((station.finishBody link.task
        (.call package function arguments returns :: instructions) context).bind goesOn) →
      Passes arrivals thread follow (.ok next.unit) ready
        (Script.reachCall station context package function returns).run crowd →
      ready.Calls arrivals station (Script.request next.unit context arguments) context.locals
        returns next.task
        (fun answer => (station.finishCall link.task instructions context answer).bind goesOn)
        answer returned →
      ready.Leads arrivals begun → Trail setup interpreter arrivals message begun (next :: inner) ended →
      ended.Leads arrivals returned →
      returned.state.OnlyFails next.unit next.task →
      Passes arrivals thread goesOn left later
        (station.finishCall link.task instructions context answer) returned →
      Trail setup interpreter arrivals message crowd (link :: next :: inner) later

section Chains

variable {setup : Setup} {interpreter : Interpreter} {message : String}
  {crowd later : Crowd ThreadId Machine (Option Answer)} {chain : List Link}

theorem Link.Raises.leads {link : Link} {inner : List Link} (keeps : crowd.KeepsBooks arrivals)
    (raises : link.Raises crowd.state message inner) (leads : crowd.Leads arrivals later) :
    link.Raises later.state message inner := by
  obtain ⟨exit, after, ended, judged⟩ := raises
  exact ⟨exit, after, keeps.history leads ended, judged⟩

/-- Up a chain of calls, every link raises the error that has crossed the links below it. -/
theorem Crowd.Trail.raises (trail : crowd.Trail setup interpreter arrivals message chain later)
    (keeps : crowd.KeepsBooks arrivals)
    (tasks : ∀ thread nesting, (setup.station interpreter thread nesting).SettlesTasks)
    (wellBuilt : setup.program.WellBuilt) :
    crowd.Leads arrivals later ∧ ∀ outer link inner, chain = outer ++ link :: inner →
      link.Raises later.state message inner := by
  induction trail with
  | @raised crowd later link thread nesting station context instructions goesOn left _ isActive
      passes =>
    refine ⟨passes.leads, ?_⟩
    intro outer other inner isChain
    obtain ⟨rfl, rfl, rfl⟩ : outer = [] ∧ link = other ∧ inner = [] := by
      cases outer with
      | nil =>
        cases isChain
        exact ⟨rfl, rfl, rfl⟩
      | cons first rest =>
        cases rest <;> cases isChain
    let raised := context.raise (.ofMessage message)
    have passesEnd : Crowd.Passes arrivals thread goesOn left later
        (link.task.conclude (.ok .halted, raised)).run crowd :=
      passes
    refine ⟨.ok .halted, raised, keeps.ended_of_concluded passesEnd, rfl, fun never => absurd rfl never, ?_⟩
    exact congrArg WorkerOutcome.raised (Link.addFrame_crossed isActive message [])
  | @called crowd ready begun ended returned later link next inner thread nesting station context
      package function arguments returns instructions goesOn follow answer left isStation isActive
      _ reaches calls leadsBegun _ leadsReturned only passes inductionHypothesis =>
    have keepsReady := keeps.leads reaches.leads
    have keepsBegun := keepsReady.leads leadsBegun
    obtain ⟨leadsEnded, raises⟩ := inductionHypothesis keepsBegun
    have keepsEnded := keepsBegun.leads leadsEnded
    have keepsReturned := keepsEnded.leads leadsReturned
    have nextRaises := (raises [] next inner rfl).leads keepsEnded leadsReturned
    obtain ⟨exit, after, ended, _, _, judged⟩ := nextRaises
    let error := Link.crossed message (next :: inner)
    have fails : (judge after exit).failure? = some (.propagated error) := by
      rw [judged]
      rfl
    subst isStation
    have program : (setup.station interpreter thread nesting).program = setup.program :=
      setup.program_station interpreter thread nesting
    obtain ⟨sound, distinct⟩ := Script.wellBuilt_of_reached (by rwa [program]) reaches
    have answered : answer = .ok (.error (.fault (.propagated error)), context.locals) :=
      keepsReady.answer_of_onlyFails (tasks thread nesting) sound distinct calls only ended fails
    subst answered
    -- The error is in the slot of the caller, and is handed on besides.
    let left := context.raise error
    have passesEnd : Crowd.Passes arrivals thread goesOn _ later
        (link.task.conclude (.error (.fault (.propagated error)), left)).run returned :=
      passes
    refine ⟨(((reaches.leads.trans leadsBegun).trans leadsEnded).trans leadsReturned).trans
      passes.leads, ?_⟩
    intro outer other deeper isChain
    cases outer with
    | nil =>
      cases isChain
      refine ⟨_, left, keepsReturned.ended_of_concluded passesEnd, rfl, fun _ => rfl, ?_⟩
      exact congrArg WorkerOutcome.raised (Link.addFrame_crossed isActive message (next :: inner))
    | cons first rest =>
      have isInner : next :: inner = rest ++ other :: deeper := (List.cons.inj isChain).2
      have kept := (raises rest other deeper isInner).leads keepsEnded leadsReturned
      exact kept.leads keepsReturned passes.leads

end Chains

end WorkerMachine
