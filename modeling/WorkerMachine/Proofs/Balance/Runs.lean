import WorkerMachine.Proofs.Balance.Scripts
import WorkerMachine.Proofs.Invocation.Meaning
/-!
# Runs that balance

Threads that wait for all calls they make, and the threads that are started for tasks, account for what
becomes of a machine.  So when all of them have ended and no task is left, the counts of the machine
balance each other, and its contexts are those that were there before, in the states that they had.
-/

namespace WorkerMachine

open Balance

variable {program : Program} {base machine : Machine} {hands : ThreadId → Hand} {thread : ThreadId}

/-! ## The beginning and the end of a run -/

/-- Nothing is under way on a machine: no task waits for anybody, and the contexts that are still to come
do not exist. -/
structure Machine.AtRest (machine : Machine) : Prop where
  waiting : machine.waitingTasks = []
  bounded : ∀ id, (machine.arena Machine.ownArena).nextId ≤ id → machine.state? id = none

namespace Balance

def Hand.ofHomes (homes : List ContextId) : Hand :=
  { held := fun id => if id ∈ homes then some ⟨.running, none⟩ else none }

theorem Hand.ofHomes_nil : Hand.ofHomes [] = {} := by
  simp [Hand.ofHomes]

/-- The contexts in hand are in the states that they had when the run began, and the scales are not
tilted. -/
structure Hand.Restores (base : Machine) (hand : Hand) : Prop where
  held : ∀ id holding, hand.held id = some holding → base.state? id = some holding.state
  share : hand.share = 0

theorem Hand.restores_empty : Hand.Restores base {} :=
  ⟨fun _ _ => nofun, rfl⟩

theorem Hand.restores_ofHomes {homes : List ContextId}
    (runs : ∀ id ∈ homes, base.state? id = some .running) : (Hand.ofHomes homes).Restores base := by
  refine ⟨fun id holding isHeld => ?_, rfl⟩
  unfold ofHomes at isHeld
  dsimp only at isHeld
  split at isHeld
  · next isHome =>
    cases isHeld
    exact runs id isHome
  · cases isHeld

/-- At the beginning every context is elsewhere, or in the hand of the one thread that is to call from
it. -/
theorem Placed.start (atRest : machine.AtRest) {homes : ThreadId → List ContextId}
    (runs : ∀ thread, ∀ id ∈ homes thread, machine.state? id = some .running)
    (apart : ∀ thread other id, id ∈ homes thread → id ∈ homes other → thread = other) :
    ∃ places, Placed program machine machine (fun thread => (Hand.ofHomes (homes thread)).held)
      places := by
  classical
  let places (id : ContextId) : Place :=
    if isHome : ∃ thread, id ∈ homes thread then .held isHome.choose ⟨.running, none⟩ else .elsewhere
  have atHome : ∀ {id thread}, id ∈ homes thread → places id = .held thread ⟨.running, none⟩ := by
    intro id thread member
    have isHome : ∃ thread, id ∈ homes thread := ⟨thread, member⟩
    change dite _ _ _ = _
    rw [dif_pos isHome, apart _ _ id isHome.choose_spec member]
  have elsewhere : ∀ {id}, (¬∃ thread, id ∈ homes thread) → places id = .elsewhere :=
    fun nobody => dif_neg nobody
  refine ⟨places, fun id => ?_, fun thread id holding => ?_, fun id task => ?_, ?_, fun id task => ?_,
    atRest.bounded⟩
  · by_cases isHome : ∃ thread, id ∈ homes thread
    · obtain ⟨thread, member⟩ := isHome
      rw [atHome member, runs thread id member]
      rfl
    · rw [elsewhere isHome]
      rfl
  · unfold Hand.ofHomes
    dsimp only
    by_cases isHome : ∃ thread, id ∈ homes thread
    · obtain ⟨owner, member⟩ := isHome
      rw [atHome member]
      by_cases isOwner : owner = thread
      · subst isOwner
        simp [member]
      · have foreign : id ∉ homes thread := fun also => isOwner (apart _ _ id member also)
        simp [foreign, isOwner]
    · have foreign : id ∉ homes thread := fun member => isHome ⟨thread, member⟩
      rw [elsewhere isHome]
      simp [foreign]
  · rw [atRest.waiting]
    by_cases isHome : ∃ thread, id ∈ homes thread
    · obtain ⟨thread, member⟩ := isHome
      rw [atHome member]
      simp
    · rw [elsewhere isHome]
      simp
  · rw [atRest.waiting]
    exact List.nodup_nil
  · by_cases isHome : ∃ thread, id ∈ homes thread
    · obtain ⟨thread, member⟩ := isHome
      rw [atHome member]
      exact nofun
    · rw [elsewhere isHome]
      exact nofun

/-- At the beginning the threads have nothing in hand but the contexts that they are to call from. -/
theorem Accounts.start (atRest : machine.AtRest) {homes : ThreadId → List ContextId}
    (runs : ∀ thread, ∀ id ∈ homes thread, machine.state? id = some .running)
    (apart : ∀ thread other id, id ∈ homes thread → id ∈ homes other → thread = other) :
    Accounts program machine machine fun thread => .ofHomes (homes thread) where
  placed := Placed.start atRest runs apart
  calls := fun _ _ => nofun
  scheduled := by
    rw [atRest.waiting]
    exact fun _ => nofun
  claimed := ⟨fun _ _ => nofun, fun _ _ _ => nofun, fun _ => List.nodup_nil⟩
  shared := Shared.start machine

/-- When no task is left and every thread has restored what it has in hand, the counts balance each
other, and all contexts are as they were. -/
theorem Accounts.close (accounts : Accounts program base machine hands)
    (waiting : machine.waitingTasks = []) (restores : ∀ thread, (hands thread).Restores base) :
    (∃ spent happened, program.Balances base machine spent happened) ∧
      ∀ id, machine.state? id = base.state? id := by
  obtain ⟨places, placed⟩ := accounts.placed
  refine ⟨accounts.shared.balances fun thread => (restores thread).share, fun id => ?_⟩
  rw [placed.states]
  cases isPlace : places id with
  | elsewhere => rfl
  | held thread holding =>
    exact ((restores thread).held id holding ((placed.held thread id holding).mpr isPlace)).symm
  | waiting task =>
    have waits := ((placed.waiting id task).mp isPlace).1
    rw [waiting] at waits
    cases waits

end Balance

/-! ## Whole runs -/

section Runs

variable {Answer : Type} {setup : Setup} {interpreter : Interpreter} {depth : Nat}
  {opened later : Crowd ThreadId Machine (Option Answer)}

/-- A thread that is started for a task has nothing in hand in the end. -/
theorem Setup.starts_welcoming_balancing (waits : interpreter.WaitsOnly setup.program)
    (sound : setup.program.Sound) (named : setup.policy.NamesThreads)
    (accepts : ¬setup.policy.TurnsAway) :
    Crowd.Welcoming (.balancing setup.program base) {} (fun _ _ last => last.Restores base)
      (setup.Starts interpreter depth : Arrivals ThreadId Machine (Option Answer)) := by
  intro machine hands thread process after fits isIdle starts
  cases starts with
  | @start _ _ front rest task nextThread isSpawned =>
    have queues : Queues machine
        { machine with spawned := front ++ rest, nextThread := nextThread } :=
      ⟨rfl, rfl, rfl, rfl, rfl⟩
    have perm : machine.waitingTasks.Perm (task ::
        { machine with spawned := front ++ rest, nextThread := nextThread }.waitingTasks) := by
      unfold Machine.waitingTasks
      rw [isSpawned, List.append_assoc, List.append_assoc]
      exact List.perm_middle
    have scheduled : task.context.inCaller = false :=
      fits.scheduled task (perm.symm.subset List.mem_cons_self)
    have taken : Exchanges setup.program base machine
        { machine with spawned := front ++ rest, nextThread := nextThread } thread {}
        (Hand.hold {} task.context.id (some ⟨.runnable, some task⟩)) :=
      queues.takes perm
    refine ⟨trivial, _, taken hands fits isIdle, ?_⟩
    have tasks : (setup.station interpreter thread depth).BalancesTasks setup.program base :=
      setup.station_balancesTasks waits sound named accepts thread depth
    have ran := tasks task (Hand.hold {} task.context.id (some ⟨.runnable, some task⟩))
      (Hand.held_hold_self ..)
    rw [Setup.thread_station] at ran
    refine Process.Follows.bind (Process.Follows.bind ran ?_) fun _ _ => id
    rintro (_ | _) last reached
    · exact reached.elim
    have isEmpty : last = {} := by
      rw [show last = _ from reached, Hand.hold_hold, Hand.hold_eq_self rfl, Task.tilt_started scheduled,
        Hand.add_zero]
    rw [isEmpty]
    refine Process.Follows.weaken (Process.immaterial_modify fun machine =>
      ⟨⟨rfl, Nat.le_refl _, rfl, rfl, rfl⟩, rfl, rfl⟩) ?_
    rintro _ _ ⟨rfl, _⟩
    exact Hand.restores_empty

/-- The threads of a crowd wait for all calls that they make, each from running contexts that no other
one calls from. -/
structure Crowd.WaitsFrom (setup : Setup) (interpreter : Interpreter) (depth : Nat)
    (homes : ThreadId → List ContextId) (crowd : Crowd ThreadId Machine (Option Answer)) : Prop where
  waits : ∀ thread process, crowd.process thread = some process →
    (setup.station interpreter thread depth).Waits (homes thread) (fun _ => True) process
  absent : ∀ thread, crowd.process thread = none → homes thread = []
  runs : ∀ thread, ∀ id ∈ homes thread, crowd.state.state? id = some .running
  apart : ∀ thread other id, id ∈ homes thread → id ∈ homes other → thread = other

/-- A run that is made of waiting calls only balances.  However the calls of its threads end, and those
that workers and inits make in turn: when all threads have ended and no task is left, a context has been
made for every worker that was scheduled or run by its caller and for every worker of every unit that was
dispatched, a response for every worker that was run by its caller, and as many inits have been run as
packages with an init unit have been initialized.  The machine holds the contexts that it held before, and
each is in the state that it was in, so the contexts that the calls were made from run again. -/
theorem waiting_calls_balance (sound : setup.program.Sound) (named : setup.policy.NamesThreads)
    (accepts : ¬setup.policy.TurnsAway) (bodies : interpreter.WaitsOnly setup.program)
    {homes : ThreadId → List ContextId} (atRest : opened.state.AtRest)
    (hosts : opened.WaitsFrom setup interpreter depth homes)
    (leads : opened.Leads (setup.Starts interpreter depth) later)
    (ended : ∀ thread process, later.process thread = some process → ∃ answer, process = .done answer)
    (finished : later.state.waitingTasks = []) :
    (∃ spent happened, setup.program.Balances opened.state later.state spent happened) ∧
      ∀ id, later.state.state? id = opened.state.state? id := by
  have orderly : opened.Orderly (.balancing setup.program opened.state) {}
      fun _ _ last => last.Restores opened.state := by
    refine ⟨fun thread => .ofHomes (homes thread), ?_, fun thread process holds => ?_,
      fun thread missing => ?_⟩
    · exact Accounts.start atRest hosts.runs hosts.apart
    · have isSetup := setup.toSetup_station interpreter thread depth
      have stays : process.Stays (.balancing setup.program opened.state)
          (setup.station interpreter thread depth).thread (.ofHomes (homes thread)) fun _ => True :=
        (hosts.waits thread process holds).balances
          (setup.station_balancesTasks bodies sound named accepts thread depth) sound
          (by rw [isSetup]; exact named) (by rw [isSetup]; exact accepts) (by rw [isSetup])
          fun id isHome => ⟨none, if_pos isHome⟩
      rw [Setup.thread_station] at stays
      refine Process.Follows.weaken stays ?_
      rintro _ _ ⟨rfl, _⟩
      exact Hand.restores_ofHomes (hosts.runs thread)
    · rw [hosts.absent thread missing, Hand.ofHomes_nil]
  obtain ⟨hands, orderlyWith⟩ := orderly.leads
    (Setup.starts_welcoming_balancing bodies sound named accepts) leads
  have accounts : Accounts setup.program opened.state later.state hands := orderlyWith.fits
  refine accounts.close finished fun thread => ?_
  cases isProcess : later.process thread with
  | none =>
    rw [orderlyWith.absent thread isProcess]
    exact Hand.restores_empty
  | some process =>
    obtain ⟨answer, rfl⟩ := ended thread process isProcess
    exact orderlyWith.ended isProcess

end Runs

theorem Station.ended_of_callingOnce {station : Station} {machine last : Machine}
    {package function : String} {answer : Option (Except Interruption (List Value))}
    {process : Work (Option (Except Interruption (List Value)))}
    (holds : ((station.callingOnce machine package function).after station.thread last
      (.done answer)).process thread = some process) : process = .done answer := by
  unfold Crowd.after callingOnce at holds
  dsimp only at holds
  by_cases isThread : thread = station.thread
  · rw [isThread, Function.update_self] at holds
    exact (Option.some.inj holds).symm
  · rw [Function.update_of_ne isThread, if_neg isThread] at holds
    cases holds

theorem Session.start_atRest {setup : Setup} {interpreter : Interpreter} {properties : Properties}
    {constants : List (String × String)} {session : Session}
    (starts : Session.start setup interpreter properties constants = .ok session) :
    session.machine.AtRest :=
  start_keeps (fun _ _ atRest => ⟨atRest.waiting, atRest.bounded⟩)
    (fun _ atRest => ⟨atRest.waiting, atRest.bounded⟩) ⟨rfl, fun _ _ => rfl⟩ starts

/-- A package with an init unit, and with a function that calls another one whose second worker is left to
the scheduler. -/
def Manifest.doubling : Manifest where
  globals := { longs := 1 }
  packages := [
    { name := "numbers"
      globals := [⟨"base", 0, .int⟩]
      init := some ⟨initUnitName, false, [], [],
        [⟨defaultWorkerName, { longs := 1 }, [.constant 0 (.int 4), .storeGlobal .int 0 0]⟩]⟩
      functions := [
        ⟨"twice", false, [.int], [.int],
          [⟨"first", { longs := 2 }, [.add .int 1 0 0, .storeReturn .int 1 0, .finish]⟩,
            ⟨"second", {}, [.sleep 5]⟩]⟩,
        ⟨"run", false, [], [.int],
          [⟨defaultWorkerName, { longs := 2 }, [.loadGlobal .int 0 0, .call "numbers" "twice" [0] [1],
            .storeReturn .int 1 0, .finish]⟩]⟩] }]
  constants := []

/-- Whether the calls of a loaded manifest read registers that exist, and what the call of `run` and the
counts come to, and whether a task is left, if nobody else moves. -/
def Manifest.doublingAlone (manifest : Manifest) :
    Option (Bool × Option (List Value) × Tallies × Bool) :=
  match manifest.load with
  | .error _ => none
  | .ok loaded =>
    let setup : Setup := ⟨loaded.program, .rehearsed .fifo, .full⟩
    let scripts := Script.interpreter loaded.bodies
    match Session.start setup scripts .empty loaded.constantNames with
    | .error _ => none
    | .ok session =>
      (((setup.station scripts Session.hostThread 9).callNamed "numbers" "run" []).run.runAlone
        session.machine).map fun ran =>
          (decide loaded.CallsInRange, ran.1.toOption, ran.2.tallies, ran.2.waitingTasks.isEmpty)

/-- A host calls `run`.  When it has its answer, four contexts have come and gone for the workers of three
units, of which one was left to the scheduler, and one package has been initialized. -/
theorem waiting_calls_balance_of_doubling :
    ∃ loaded, Manifest.doubling.load = .ok loaded ∧
      let setup : Setup := ⟨loaded.program, .rehearsed .fifo, .full⟩
      let scripts := Script.interpreter loaded.bodies
      ∃ session later, Session.start setup scripts .empty loaded.constantNames = .ok session ∧
        ((setup.station scripts Session.hostThread 9).callingOnce session.machine "numbers"
          "run").Leads (setup.Starts scripts 9) later ∧
        later.Ended Session.hostThread (some (.ok [.int 8])) ∧
        later.state.tallies = ⟨4, 1, 3, 3, 1⟩ ∧
        (∃ spent happened, setup.program.Balances session.machine later.state spent happened) ∧
        ∀ id, later.state.state? id = session.machine.state? id := by
  obtain ⟨loaded, loads⟩ : ∃ loaded, Manifest.doubling.load = .ok loaded := ⟨_, rfl⟩
  refine ⟨loaded, loads, ?_⟩
  intro setup scripts
  obtain ⟨session, starts⟩ := Session.exists_start_of_load loads
    (show setup.program = loaded.program from rfl) scripts .empty
  have alone : Manifest.doubling.doublingAlone =
      some (true, some [.int 8], ⟨4, 1, 3, 3, 1⟩, true) := by
    decide +kernel
  unfold Manifest.doublingAlone at alone
  rw [loads] at alone
  dsimp only at alone
  rw [starts] at alone
  obtain ⟨⟨outcome, last⟩, ran, isLast⟩ := Option.map_eq_some_iff.mp alone
  simp only [Prod.mk.injEq, decide_eq_true_eq, List.isEmpty_iff] at isLast
  obtain ⟨inRange, isOutcome, isTallies, isIdle⟩ := isLast
  have passes : Crowd.Passes (setup.Starts scripts 9) Session.hostThread _ outcome _ _ _ :=
    Crowd.passes_of_runAlone
      (setup.process_callingOnce scripts 9 session.machine "numbers" "run") ran
  have hosts : ((setup.station scripts Session.hostThread 9).callingOnce session.machine "numbers"
      "run").WaitsFrom setup scripts 9 fun _ => [] := by
    refine ⟨fun thread process holds => ?_, fun _ _ => rfl, fun _ _ => nofun, fun _ _ _ => nofun⟩
    exact .of_callsByName
      (setup.callsByName_of_callingOnce scripts 9 session.machine "numbers" "run" thread process holds)
  have accepts : ¬setup.policy.TurnsAway := fun rejects => by cases rejects
  obtain ⟨balances, states⟩ := waiting_calls_balance (Manifest.program_sound loads) (fun _ => rfl)
    accepts (Script.interpreter_waitsOnly inRange) (Session.start_atRest starts) hosts passes.leads
    (fun thread process holds => ⟨_, Station.ended_of_callingOnce holds⟩) isIdle
  cases outcome with
  | error interruption => cases isOutcome
  | ok values =>
    cases isOutcome
    exact ⟨session, _, starts, passes.leads, passes.reached, isTallies, balances, states⟩

def idleUnit : Callable :=
  ⟨"lib", "idle", .function, .empty, .empty, ⟨defaultWorkerName, 0, {}⟩, []⟩

def callingIdle (parent : Context) : Work (Except Interruption (List Value)) :=
  ((poolSetup.station (fun _ => pure .halted) 0 3).callValues idleUnit parent []).run

/-- A running root of another arena still waits when its call is over: it is marked as waiting in its own
arena, and looked up in the machine's own arena when it is to run again. -/
theorem call_below_other_arena_waits :
    let parent := Context.root 1 none 1 1
    let opened : Crowd ThreadId Machine (Option (Except Interruption (List Value))) :=
      ⟨.withRoots [(1, .running)], fun thread =>
        if thread = 0 then some ((callingIdle parent).bind fun outcome => .done (some outcome))
        else none⟩
    opened.state.stateIn? parent.arena parent.id = some .running ∧
      ∃ later, opened.Leads (poolSetup.Starts (fun _ => pure .halted) 3) later ∧
        later.Ended 0 (some (.ok [])) ∧ later.state.waitingTasks = [] ∧
        later.state.stateIn? parent.arena parent.id = some .waiting := by
  intro parent opened
  have alone : ((callingIdle (.root 1 none 1 1)).runAlone (.withRoots [(1, .running)])).map
      (fun ran => (ran.1.toOption, ran.2.waitingTasks.isEmpty, ran.2.stateIn? 1 1)) =
        some (some [], true, some .waiting) := by
    decide +kernel
  obtain ⟨⟨outcome, last⟩, ran, isLast⟩ := Option.map_eq_some_iff.mp alone
  simp only [Prod.mk.injEq, List.isEmpty_iff] at isLast
  obtain ⟨isOutcome, isIdle, waits⟩ := isLast
  have passes : Crowd.Passes (poolSetup.Starts (fun _ => pure .halted) 3) 0 _ outcome _ _ opened :=
    Crowd.passes_of_runAlone (show opened.process 0 = _ from rfl) ran
  cases outcome with
  | error interruption => cases isOutcome
  | ok values =>
    cases isOutcome
    exact ⟨rfl, _, passes.leads, passes.reached, isIdle, waits⟩

end WorkerMachine
