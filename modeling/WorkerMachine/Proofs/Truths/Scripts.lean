import WorkerMachine.Proofs.Clearance.Gatekeeping
import WorkerMachine.Proofs.Constants.Deferring
import WorkerMachine.Proofs.Failing.Hosts
import WorkerMachine.Proofs.Machine.Threads
import WorkerMachine.Proofs.Process.Passing
import WorkerMachine.Proofs.Truths.Calls
import WorkerMachine.Script.Interpreter
/-!
# Zeros and ones in the runs of scripts

Instructions store nothing but zeros and ones where booleans are.  So in whatever state a run comes to,
all registers of workers, all results, whatever has been staged and global memory hold nothing else
there.
-/

namespace WorkerMachine

/-! ## Instructions -/

namespace Script

variable {station : Station} {context : Context}

theorem loadLocal_truly (truths : context.HasTruths) (bank : Bank) (index : Nat) :
    (loadLocal bank index).Keeps Machine.HasTruths context (fun _ after => after.HasTruths)
      Context.HasTruths := by
  have looked : (get : Routine Context).Keeps Machine.HasTruths context
      (fun _ after => after.HasTruths) Context.HasTruths :=
    Routine.stays_get truths
  exact Routine.Stays.bind looked fun _ _ held =>
    Routine.stays_effect (Effect.stays_ofAccess fun _ _ => held) held

theorem storeLocal_truly (truths : context.HasTruths) (bank : Bank) (index : Nat)
    (value : Value) :
    (storeLocal bank index value).Keeps Machine.HasTruths context
      (fun _ after => after.HasTruths) Context.HasTruths := by
  have looked : (get : Routine Context).Keeps Machine.HasTruths context
      (fun before after => before.HasTruths ∧ after.HasTruths) Context.HasTruths :=
    Routine.stays_get ⟨truths, truths⟩
  refine Routine.Stays.bind looked fun before after held => ?_
  have accessed : (liftM (Effect.ofAccess (before.locals.storeOrKeep ⟨bank, index⟩ value)) :
      Routine RegisterFile).Keeps Machine.HasTruths after (fun locals _ => locals.HasTruths)
        Context.HasTruths :=
    Routine.stays_effect (Effect.stays_ofAccess fun _ stored => held.1.locals.storeOrKeep stored)
      held.2
  exact Routine.Stays.bind accessed fun _ _ locals => Routine.stays_set ⟨locals, held.1.results⟩

theorem storeResult_truly (truths : context.HasTruths) (bank : Bank) (index : Nat)
    (value : Value) :
    (storeResult bank index value).Keeps Machine.HasTruths context
      (fun _ after => after.HasTruths) Context.HasTruths := by
  have looked : (get : Routine Context).Keeps Machine.HasTruths context
      (fun before after => before.HasTruths ∧ after.HasTruths) Context.HasTruths :=
    Routine.stays_get ⟨truths, truths⟩
  refine Routine.Stays.bind looked fun before after held => ?_
  have accessed : (liftM (Effect.ofAccess (before.results.storeOrKeep ⟨bank, index⟩ value)) :
      Routine RegisterFile).Keeps Machine.HasTruths after (fun results _ => results.HasTruths)
        Context.HasTruths :=
    Routine.stays_effect (Effect.stays_ofAccess fun _ stored => held.1.results.storeOrKeep stored)
      held.2
  exact Routine.Stays.bind accessed fun _ _ results => Routine.stays_set ⟨held.1.locals, results⟩

theorem storeGlobal_truly (slot : Slot) (value : Value) :
    (storeGlobal slot value).Keeps Machine.HasTruths fun _ => True :=
  storeGlobal_stays slot value fun _ _ _ truths _ stored =>
    ⟨trivial, { truths with globals := truths.globals.storeOrKeep stored }⟩

theorem effect_truly {Answer : Type} {effect : Effect Answer} (truths : context.HasTruths)
    (keeps : effect.Keeps Machine.HasTruths fun _ => True) :
    (liftM effect : Routine Answer).Keeps Machine.HasTruths context
      (fun _ after => after.HasTruths) Context.HasTruths :=
  Routine.stays_effect (keeps.weaken fun _ _ => truths) truths

theorem callFunction_truly (tasks : station.RunsTruly) (truths : context.HasTruths)
    (package function : String) (arguments returns : List Nat) :
    (callFunction station package function arguments returns).Keeps Machine.HasTruths context
      (fun _ after => after.HasTruths) Context.HasTruths := by
  have proceeds : ∀ (found : Package) (unit : Callable) {context : Context}, context.HasTruths → (do
      station.ensureInitialized found (← get)
      station.callRegisters unit arguments returns : Routine Unit).Keeps Machine.HasTruths context
        (fun _ after => after.HasTruths) Context.HasTruths := by
    intro found unit context held
    have looked : (get : Routine Context).Keeps Machine.HasTruths context
        (fun _ after => after.HasTruths) Context.HasTruths :=
      Routine.stays_get held
    refine Routine.Stays.bind looked fun caller _ held => ?_
    have initialized := effect_truly held (Station.ensureInitialized_truly tasks found caller)
    refine Routine.Stays.bind initialized fun _ _ held => ?_
    exact Station.callRegisters_truly tasks held unit arguments returns
  unfold callFunction
  refine Routine.Stays.bind (effect_truly truths (Effect.stays_ofExcept fun _ _ => trivial))
    fun found _ held => ?_
  refine Routine.Stays.bind (effect_truly held (Effect.stays_ofExcept fun _ _ => trivial))
    fun unit after held => ?_
  split
  · have refused : (throw (.fault (.arityMismatch unit.qualifiedName unit.returns.length
        returns.length)) : Routine PUnit).Keeps Machine.HasTruths after (fun _ _ => False)
          Context.HasTruths :=
      Routine.stays_throw held
    exact Routine.Stays.bind refused fun _ _ never => never.elim
  · exact proceeds found unit held

/-- Every instruction leaves zeros and ones where booleans are, however it ends. -/
theorem carryOut_truly (tasks : station.RunsTruly) (instruction : Instruction)
    (truths : context.HasTruths) :
    (carryOut station instruction).Keeps Machine.HasTruths context
      (fun _ after => after.HasTruths) Context.HasTruths := by
  have goesOn : ∀ (continuation : Continuation) (after : Context), after.HasTruths →
      (pure continuation : Routine Continuation).Keeps Machine.HasTruths after
        (fun _ after => after.HasTruths) Context.HasTruths :=
    fun _ _ held => Routine.stays_pure held
  cases instruction with
  | constant target literal =>
      exact Routine.Stays.bind (storeLocal_truly truths _ _ _) fun _ after => goesOn .next after
  | add bank target left right =>
      by_cases numeric : isNumeric bank = true
      · simp only [carryOut, numeric, if_true]
        refine Routine.Stays.bind (loadLocal_truly truths _ _) fun first _ held => ?_
        refine Routine.Stays.bind (loadLocal_truly held _ _) fun second after held => ?_
        split
        · exact Routine.Stays.bind (storeLocal_truly held _ _ _) fun _ after => goesOn .next after
        · exact goesOn .next after held
      · simp only [carryOut, numeric]
        exact Routine.stays_throw truths
  | concat target left right =>
      refine Routine.Stays.bind (loadLocal_truly truths _ _) fun first _ held => ?_
      refine Routine.Stays.bind (loadLocal_truly held _ _) fun second after held => ?_
      split
      · exact Routine.Stays.bind (storeLocal_truly held _ _ _) fun _ after => goesOn .next after
      · exact goesOn .next after held
  | move bank target source =>
      refine Routine.Stays.bind (loadLocal_truly truths _ _) fun value _ held => ?_
      exact Routine.Stays.bind (storeLocal_truly held _ _ _) fun _ after => goesOn .next after
  | storeReturn bank source slot =>
      refine Routine.Stays.bind (loadLocal_truly truths _ _) fun value _ held => ?_
      exact Routine.Stays.bind (storeResult_truly held _ _ _) fun _ after => goesOn .next after
  | finish =>
      exact goesOn _ context truths
  | raise message =>
      exact goesOn _ _ ⟨truths.locals, truths.results⟩
  | storeGlobal bank source slot =>
      refine Routine.Stays.bind (loadLocal_truly truths _ _) fun value _ held => ?_
      exact Routine.Stays.bind (effect_truly held (storeGlobal_truly _ value)) fun _ after =>
        goesOn .next after
  | loadGlobal bank target slot =>
      refine Routine.Stays.bind (effect_truly truths (Effect.truly_read _)) fun loaded _ held => ?_
      refine Routine.Stays.bind (effect_truly held (Effect.stays_ofAccess fun _ _ => trivial))
        fun value _ held => ?_
      exact Routine.Stays.bind (storeLocal_truly held _ _ _) fun _ after => goesOn .next after
  | call package function arguments returns =>
      exact Routine.Stays.bind (callFunction_truly tasks truths package function arguments returns)
        fun _ after => goesOn .next after
  | sleep milliseconds =>
      exact goesOn .next context truths

theorem carryOutAll_truly (tasks : station.RunsTruly) (instructions : List Instruction)
    (truths : context.HasTruths) :
    (carryOutAll station instructions).Keeps Machine.HasTruths context
      (fun _ after => after.HasTruths) Context.HasTruths := by
  induction instructions generalizing context with
  | nil =>
      exact Routine.stays_pure truths
  | cons instruction rest inductionHypothesis =>
      unfold carryOutAll
      refine Routine.Stays.bind (carryOut_truly tasks instruction truths)
        fun continuation after held => ?_
      cases continuation with
      | next => exact inductionHypothesis held
      | stop exit => exact Routine.stays_pure held

theorem interpreter_truly (tasks : station.RunsTruly) (bodies : Table BodyKey (List Instruction))
    (truths : context.HasTruths) :
    (interpreter bodies station).Keeps Machine.HasTruths context
      (fun _ after => after.HasTruths) Context.HasTruths := by
  have looked : (get : Routine Context).Keeps Machine.HasTruths context
      (fun _ after => after.HasTruths) Context.HasTruths :=
    Routine.stays_get truths
  unfold interpreter Interpreter.ofBodies
  refine Routine.Stays.bind looked fun before after held => ?_
  split
  · exact Routine.stays_pure held
  · split
    · exact Routine.stays_throw held
    · exact carryOutAll_truly tasks _ held

end Script

/-- Scripts keep zeros and ones on every station, however deep tasks may nest. -/
theorem Setup.station_runsTruly (setup : Setup) (bodies : Table BodyKey (List Script.Instruction))
    (thread : ThreadId) (depth : Nat) :
    (setup.station (Script.interpreter bodies) thread depth).RunsTruly := by
  induction depth with
  | zero =>
      exact fun task _ => Effect.follows_stall fun _ _ _ _ => trivial
  | succ depth inductionHypothesis =>
      intro task truths
      exact Station.carryOut_truly (fun context held =>
        Script.interpreter_truly inductionHypothesis bodies held) truths

/-! ## Runs -/

/-- In a run, a thread carries out instructions for a task whose worker has begun.  The rest of the
instructions that it has come to, and the context as it is then. -/
inductive Crowd.Works {Answer : Type} (arrivals : Arrivals ThreadId Machine (Option Answer))
    (opened : Crowd ThreadId Machine (Option Answer)) (station : Station) (task : Task)
    (instructions : List Script.Instruction) :
    List Script.Instruction → Context → Crowd ThreadId Machine (Option Answer) → Prop
  | begun {crowd : Crowd ThreadId Machine (Option Answer)}
      {goesOn : Except Interruption WorkerExit × Context → Work (Option Answer)} :
      opened.Leads arrivals crowd → .started task ∈ crowd.state.history →
      crowd.process station.thread =
        some (((Script.carryOutAll station instructions).runOn task.context).bind goesOn) →
      Works arrivals opened station task instructions instructions task.context crowd
  | next {crowd later : Crowd ThreadId Machine (Option Answer)} {instruction : Script.Instruction}
      {rest : List Script.Instruction} {context after : Context}
      {follow : Except Interruption Script.Continuation × Context → Work (Option Answer)} :
      Works arrivals opened station task instructions (instruction :: rest) context crowd →
      Crowd.Passes arrivals station.thread follow (.ok .next, after) later
        ((Script.carryOut station instruction).runOn context) crowd →
      Works arrivals opened station task instructions rest after later

theorem Crowd.Works.leads {Answer : Type} {arrivals : Arrivals ThreadId Machine (Option Answer)}
    {opened crowd : Crowd ThreadId Machine (Option Answer)} {station : Station} {task : Task}
    {instructions rest : List Script.Instruction} {context : Context}
    (works : opened.Works arrivals station task instructions rest context crowd) :
    opened.Leads arrivals crowd := by
  induction works with
  | begun leads _ _ => exact leads
  | next _ passes inductionHypothesis => exact inductionHypothesis.trans passes.leads

section Runs

variable {Answer : Type} {setup : Setup} {bodies : Table BodyKey (List Script.Instruction)}
  {depth : Nat} {opened crowd : Crowd ThreadId Machine (Option Answer)}

/-- Threads that are started for tasks keep zeros and ones. -/
theorem Setup.starts_welcoming_truths : Crowd.Welcoming (.keeping ThreadId Machine.HasTruths) ()
    (fun _ _ _ => True)
    (setup.Starts (Script.interpreter bodies) depth :
      Arrivals ThreadId Machine (Option Answer)) := by
  intro machine hands thread process later fits _ starts
  have truths : machine.HasTruths := fits
  cases starts with
  | @start _ _ front rest task nextThread isSpawned =>
      have taskTruths : task.context.HasTruths :=
        truths.spawned task (isSpawned ▸ List.mem_append_right _ List.mem_cons_self)
      have others : ∀ other ∈ front ++ rest, other.context.HasTruths := by
        intro other member
        refine truths.spawned other (isSpawned ▸ ?_)
        rcases List.mem_append.mp member with inFront | inRest
        · exact List.mem_append_left _ inFront
        · exact List.mem_append_right _ (List.mem_cons_of_mem _ inRest)
      have started : (setup.threadOf (Script.interpreter bodies) depth thread task).Keeps
          Machine.HasTruths fun _ => True := by
        refine Process.Stays.bind (Effect.Stays.run
          (setup.station_runsTruly bodies thread depth task taskTruths)) fun _ _ => ?_
        exact Process.truly_modify fun _ held => held.of_same rfl rfl rfl rfl rfl
      have ran : ((setup.threadOf (Script.interpreter bodies) depth thread task).bind fun _ =>
          (.done none : Work (Option Answer))).Keeps Machine.HasTruths fun _ => True :=
        Process.Stays.bind started fun _ _ => Process.stays_done trivial
      refine ⟨trivial, (), ?_, ?_⟩
      · exact ⟨truths.globals, truths.staged, truths.queued, others, truths.history⟩
      · exact Process.Follows.weaken (ran.stays thread) fun _ _ _ => trivial

/-- At its start a machine holds zeros only. -/
theorem Session.start_hasTruths {interpreter : Interpreter} {properties : Properties}
    {constants : List (String × String)} {session : Session}
    (starts : Session.start setup interpreter properties constants = .ok session) :
    session.machine.HasTruths := by
  refine Session.start_keeps (fun _ _ truths => truths.of_same rfl rfl rfl rfl rfl)
    (fun _ truths => truths.of_same rfl rfl rfl rfl rfl) ?_ starts
  refine ⟨RegisterFile.hasTruths_ofSizes _, ?_, ?_, ?_, ?_⟩
  · exact fun _ member => absurd member (Array.not_mem_empty _)
  · exact fun _ => nofun
  · exact fun _ => nofun
  · exact fun _ => nofun

/-- A crowd of hosts that call by name keeps zeros and ones. -/
theorem Crowd.orderly_truths (truths : opened.state.HasTruths)
    (hosts : ∀ thread process, opened.process thread = some process →
      (setup.station (Script.interpreter bodies) thread depth).CallsByName process) :
    opened.Orderly (.keeping ThreadId Machine.HasTruths) () fun _ _ _ => True := by
  refine ⟨fun _ => (), truths, fun thread process holds => ?_, fun _ _ => rfl⟩
  have keeps := (hosts thread process holds).truly (setup.station_runsTruly bodies thread depth)
  exact Process.Follows.weaken (keeps.stays thread) fun _ _ _ => trivial

/-- Wherever a worker has come to in such a run, there are zeros and ones in its registers. -/
theorem Crowd.Works.hasTruths {thread : ThreadId} {nesting : Nat} {task : Task}
    {instructions rest : List Script.Instruction} {context : Context}
    (orderly : opened.Orderly (.keeping ThreadId Machine.HasTruths) () fun _ _ _ => True)
    (works : opened.Works (setup.Starts (Script.interpreter bodies) depth)
      (setup.station (Script.interpreter bodies) thread nesting) task instructions rest context
      crowd) :
    context.HasTruths ∧
      ∃ hands, crowd.OrderlyApart (.keeping ThreadId Machine.HasTruths) () thread hands := by
  induction works with
  | begun leads isStarted _ =>
      obtain ⟨hands, orderlyWith⟩ := orderly.leads Setup.starts_welcoming_truths leads
      have truths : Machine.HasTruths _ := orderlyWith.fits
      exact ⟨truths.history _ isStarted, hands, orderlyWith.apart thread none⟩
  | @next _ _ instruction _ context _ _ _ passes inductionHypothesis =>
      obtain ⟨truths, hands, apart⟩ := inductionHypothesis
      rw [Setup.thread_station] at passes
      have keeps : ((Script.carryOut (setup.station (Script.interpreter bodies) thread nesting)
          instruction).runOn context).Keeps Machine.HasTruths fun answer => answer.2.HasTruths :=
        Routine.Stays.run (Script.carryOut_truly (setup.station_runsTruly bodies thread nesting)
          instruction truths)
      obtain ⟨hands, apartAfter, _, reached⟩ :=
        apart.passes Setup.starts_welcoming_truths rfl (keeps.stays thread) passes
      exact ⟨reached, hands, apartAfter⟩

end Runs

/-- The runs of scripts keep booleans as zeros and ones.  In whatever state hosts that call by name, and
the threads that are started, come to, all register files of the machine hold nothing else in the slots
of booleans, and so do the registers and the results of every worker that has begun, after each of its
instructions.  Zeros and ones are what it takes for a slot to be worth the same whether it is loaded
and stored or copied. -/
theorem scripts_keep_truths {manifest : Manifest} {loaded : Manifest.Loaded}
    (loads : manifest.load = .ok loaded) {setup : Setup} (runs : setup.program = loaded.program)
    (properties : Properties) :
    let scripts := Script.interpreter loaded.bodies
    ∃ session, Session.start setup scripts properties loaded.constantNames = .ok session ∧
      ∀ {Answer : Type} {depth : Nat} {opened crowd : Crowd ThreadId Machine (Option Answer)},
        opened.state = session.machine →
        (∀ thread process, opened.process thread = some process →
          (setup.station scripts thread depth).CallsByName process) →
        opened.Leads (setup.Starts scripts depth) crowd →
        crowd.state.HasTruths ∧
          (∀ {thread : ThreadId} {nesting : Nat} {task : Task}
            {instructions rest : List Script.Instruction} {context : Context},
            opened.Works (setup.Starts scripts depth) (setup.station scripts thread nesting) task
              instructions rest context crowd → context.HasTruths) ∧
          ∀ file : RegisterFile, file.HasTruths ↔ file.TravelsAlike := by
  intro scripts
  obtain ⟨session, starts⟩ := Session.exists_start_of_load loads runs scripts properties
  refine ⟨session, starts, ?_⟩
  intro Answer depth opened crowd fresh hosts leads
  have orderly := Crowd.orderly_truths (fresh ▸ Session.start_hasTruths starts) hosts
  obtain ⟨hands, orderlyWith⟩ := orderly.leads Setup.starts_welcoming_truths leads
  refine ⟨orderlyWith.fits, ?_, fun file => RegisterFile.travelsAlike_iff.symm⟩
  intro thread nesting task instructions rest context works
  exact (works.hasTruths orderly).1

def Manifest.raisingFlag : Manifest where
  globals := { ints := 1 }
  packages := [
    { name := "flags"
      globals := [⟨"flag", 0, .boolean⟩]
      init := none
      functions := [⟨"raise", false, [], [.boolean], [⟨defaultWorkerName, { ints := 2 },
        [.constant 1 (.boolean true), .storeGlobal .boolean 1 0, .loadGlobal .boolean 0 0,
          .storeReturn .boolean 0 0, .finish]⟩]⟩] }]
  constants := []

/-! ## A worker that moves alone -/

/-- So many instructions of a worker, carried out with nothing beside them: the instructions that are
left, the context and the machine then. -/
def Script.carriedAlone (station : Station) :
    Nat → List Script.Instruction → Context → Machine →
      Option (List Script.Instruction × Context × Machine)
  | 0, instructions, context, machine => some (instructions, context, machine)
  | count + 1, instruction :: rest, context, machine =>
    match ((Script.carryOut station instruction).runOn context).runAlone machine with
    | some ((.ok .next, after), later) => carriedAlone station count rest after later
    | _ => none
  | _ + 1, [], _, _ => none

theorem Crowd.Works.exists_carried {Answer : Type}
    {arrivals : Arrivals ThreadId Machine (Option Answer)}
    {opened crowd : Crowd ThreadId Machine (Option Answer)} {station : Station} {task : Task}
    {instructions left rest : List Script.Instruction} {context after : Context} {count : Nat}
    {goesOn : Except Interruption WorkerExit × Context → Work (Option Answer)} {later : Machine}
    (works : opened.Works arrivals station task instructions left context crowd)
    (begun : crowd.process station.thread =
      some (((Script.carryOutAll station left).runOn context).bind goesOn))
    (carried : Script.carriedAlone station count left context crowd.state =
      some (rest, after, later)) :
    ∃ moment, opened.Works arrivals station task instructions rest after moment ∧
      moment.state = later := by
  induction count generalizing left context crowd with
  | zero =>
    cases carried
    exact ⟨crowd, works, rfl⟩
  | succ count inductionHypothesis =>
    cases left with
    | nil => cases carried
    | cons instruction left =>
      unfold Script.carriedAlone at carried
      split at carried
      · next middle reached ran =>
        unfold Script.carryOutAll at begun
        rw [Routine.runOn_bind, Process.bind_assoc] at begun
        obtain ⟨between, passes, rfl⟩ := Crowd.exists_passes_of_runAlone begun ran
        exact inductionHypothesis (works.next passes) passes.reached carried
      · cases carried

/-- The first worker of a function that a host calls by name, so many instructions after it has begun,
if nobody else moves: its task, all instructions and those that are left, its context and the
machine. -/
def Setup.workAlone (setup : Setup) (bodies : Table BodyKey (List Script.Instruction))
    (nesting : Nat) (machine : Machine) (package function : String) (count : Nat) :
    Option (Task × List Script.Instruction × List Script.Instruction × Context × Machine) := do
  let station := setup.station (Script.interpreter bodies) Session.hostThread
  let (task, entered) ← (station (nesting + 1)).namedEntry package function machine
  let (unit, worker) ← task.context.activity
  let instructions ← bodies.get? (unit.bodyKey worker)
  let (rest, context, later) ←
    Script.carriedAlone (station nesting) count instructions task.context entered
  return (task, instructions, rest, context, later)

theorem Setup.exists_works_of_workAlone {setup : Setup}
    {bodies : Table BodyKey (List Script.Instruction)} {nesting count : Nat}
    {machine later : Machine} {package function : String} {task : Task}
    {instructions rest : List Script.Instruction} {context : Context}
    {arrivals : Arrivals ThreadId Machine (Option (Except Interruption (List Value)))}
    (isWork : setup.workAlone bodies nesting machine package function count =
      some (task, instructions, rest, context, later)) :
    ∃ moment,
      ((setup.station (Script.interpreter bodies) Session.hostThread (nesting + 1)).callingOnce
        machine package function).Works arrivals
          (setup.station (Script.interpreter bodies) Session.hostThread nesting) task instructions
          rest context moment ∧
        moment.state = later := by
  unfold Setup.workAlone at isWork
  obtain ⟨⟨own, entered⟩, enters, onEntered⟩ := Option.bind_eq_some_iff.mp isWork
  obtain ⟨⟨unit, worker⟩, isActive, onActive⟩ := Option.bind_eq_some_iff.mp onEntered
  obtain ⟨script, isBody, onBody⟩ := Option.bind_eq_some_iff.mp onActive
  obtain ⟨⟨left, after, last⟩, carried, isResult⟩ := Option.bind_eq_some_iff.mp onBody
  cases isResult
  obtain ⟨⟨follow, comes⟩, isStarted⟩ := Station.enters_callNamed enters
  have begun := setup.process_callingOnce (Script.interpreter bodies) (nesting + 1) machine package
    function
  obtain ⟨crowd, leads, rfl, isLeft, _⟩ := Crowd.exists_left begun comes
  unfold Station.body at isLeft
  rw [Script.runOn_interpreter _ isActive isBody, Process.bind_assoc, Process.bind_assoc] at isLeft
  have atBody := (congrArg crowd.process
    (setup.thread_station (Script.interpreter bodies) Session.hostThread nesting)).trans isLeft
  exact Crowd.Works.exists_carried (.begun leads isStarted atBody) atBody carried

/-- What a call of `raise` comes to if nobody else moves, and the integers that stand for booleans in
global memory then; and those in the registers of the worker and in global memory once it has carried
out three instructions, and how many instructions are left then. -/
def Manifest.flagsAlone (manifest : Manifest) :
    Option ((Option (List Value) × Array Int32) × Option (Array Int32 × Array Int32 × Nat)) :=
  match manifest.load with
  | .error _ => none
  | .ok loaded =>
    let setup : Setup := ⟨loaded.program, .threadPool true Policy.usualThreadName 2, .full⟩
    let scripts := Script.interpreter loaded.bodies
    match Session.start setup scripts .empty loaded.constantNames with
    | .error _ => none
    | .ok session =>
      (((setup.station scripts Session.hostThread 9).callNamed "flags" "raise" []).run.runAlone
        session.machine).map fun ran => ((ran.1.toOption, ran.2.globals.ints),
          (setup.workAlone loaded.bodies 8 session.machine "flags" "raise" 3).map
            fun (_, _, rest, context, later) =>
              (context.locals.ints, later.globals.ints, rest.length))

/-- A host calls the function that raises a flag.  When the worker has raised the flag and read it
again, with two instructions left, all its integers are zeros and ones; and when the host has its
answer, the flag is one, and whatever else the machine holds is kept as zeros and ones. -/
theorem scripts_keep_truths_of_raisingFlag :
    ∃ loaded, Manifest.raisingFlag.load = .ok loaded ∧
      let setup : Setup := ⟨loaded.program, .threadPool true Policy.usualThreadName 2, .full⟩
      let scripts := Script.interpreter loaded.bodies
      ∃ session crowd, Session.start setup scripts .empty loaded.constantNames = .ok session ∧
        ((setup.station scripts Session.hostThread 9).callingOnce session.machine "flags"
          "raise").Leads (setup.Starts scripts 9) crowd ∧
        crowd.Ended Session.hostThread (some (.ok [.boolean true])) ∧
        crowd.state.globals.ints = #[1] ∧ crowd.state.HasTruths ∧
        ∃ task instructions rest context moment,
          ((setup.station scripts Session.hostThread 9).callingOnce session.machine "flags"
            "raise").Works (setup.Starts scripts 9) (setup.station scripts Session.hostThread 8)
              task instructions rest context moment ∧
          rest.length = 2 ∧ context.locals.ints = #[1, 1] ∧ moment.state.globals.ints = #[1] ∧
          context.HasTruths ∧ context.locals.TravelsAlike := by
  obtain ⟨loaded, loads⟩ : ∃ loaded, Manifest.raisingFlag.load = .ok loaded := ⟨_, rfl⟩
  refine ⟨loaded, loads, ?_⟩
  intro setup scripts
  obtain ⟨session, starts, keeps⟩ :=
    scripts_keep_truths loads (show setup.program = loaded.program from rfl) .empty
  have alone : Manifest.raisingFlag.flagsAlone =
      some ((some [.boolean true], #[1]), some (#[1, 1], #[1], 2)) := by
    decide +kernel
  unfold Manifest.flagsAlone at alone
  rw [loads] at alone
  dsimp only at alone
  rw [starts] at alone
  obtain ⟨⟨outcome, last⟩, ran, isLast⟩ := Option.map_eq_some_iff.mp alone
  obtain ⟨isEnd, isMoment⟩ := Prod.mk.inj isLast
  obtain ⟨isOutcome, isFlag⟩ := Prod.mk.inj isEnd
  obtain ⟨⟨task, instructions, rest, context, later⟩, isWork, isLater⟩ :=
    Option.map_eq_some_iff.mp isMoment
  simp only [Prod.mk.injEq] at isLater
  obtain ⟨isContext, isGlobals, isRest⟩ := isLater
  have hosts := setup.callsByName_of_callingOnce scripts 9 session.machine "flags" "raise"
  obtain ⟨crowd, passes, rfl⟩ := Crowd.exists_passes_of_runAlone
    (setup.process_callingOnce scripts 9 session.machine "flags" "raise") ran
  have leads : Crowd.Leads (setup.Starts scripts 9) _ crowd := passes.leads
  obtain ⟨moment, works, rfl⟩ : ∃ moment, ((setup.station scripts Session.hostThread 9).callingOnce
      session.machine "flags" "raise").Works (setup.Starts scripts 9)
        (setup.station scripts Session.hostThread 8) task instructions rest context moment ∧
      moment.state = later := Setup.exists_works_of_workAlone isWork
  obtain ⟨_, working, travels⟩ := keeps rfl hosts works.leads
  have workerTruths := working works
  have ended := passes.reached
  cases outcome with
  | error interruption => cases isOutcome
  | ok values =>
      cases isOutcome
      exact ⟨session, crowd, starts, leads, ended, isFlag, (keeps rfl hosts leads).1, task,
        instructions, rest, context, moment, works, isRest, isContext, isGlobals, workerTruths,
        (travels context.locals).mp workerTruths.locals⟩

end WorkerMachine
