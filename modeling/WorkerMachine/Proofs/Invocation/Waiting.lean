import WorkerMachine.Proofs.Invocation.Conduct
import WorkerMachine.Proofs.Registers.Seeding
/-!
# The caller of a waiting invocation

The steps of the caller of a unit, from the moment when the response has been opened until the
values are told.
-/

namespace WorkerMachine

/-- A policy under which every task is handed to a thread. -/
structure Policy.Reliable (policy : Policy) : Prop where
  threaded : policy.isThreaded = true
  unfailing : ∀ threadName stackSize failure,
    policy = .ownThreads threadName stackSize failure → failure = none
  named : ∀ context, policy.threadRefusal? context = none

def Notes.addTask (notes : Notes) (task : Task) : Notes :=
  { notes with made := notes.made ++ [task] }

def Call.task (call : Call) (worker : Worker) (locals : RegisterFile) (inCaller : Bool)
    (id : ContextId) : Task where
  context :=
    { id := id
      parent := some call.parent.id
      arena := call.parent.arena
      properties := call.parent.properties
      activity := some (call.unit, worker)
      error := none
      inCaller := inCaller
      locals := locals
      results := .ofSizes call.unit.returns.sizes }
  response := call.response

section Caller

variable {Answer : Type} {arenas : Set ArenaKey} {call : Call} {token : Part} {notes : Notes}

/-- A step in which the caller takes over another duty or notes something, and no worker begins or
ends. -/
theorem Process.caller_atomically {operation : Machine → Answer × Machine}
    {goal : Answer → Part → Prop} (noted : token.notes = some notes)
    (sameHistory : ∀ machine, (operation machine).2.history = machine.history)
    (reached : ∀ machine duties owns, call.Sound arenas machine duties owns notes →
      duties call.thread = token.duty →
        ∃ duty later,
          call.Sound arenas (operation machine).2 (Function.update duties call.thread duty) owns
            later ∧ goal (operation machine).1 ⟨token.own, duty, some later⟩) :
    (atomically operation).Follows (call.discipline arenas) call.thread token goal := by
  refine follows_atomically fun machine hands fits holding => ?_
  obtain ⟨known, notesOfCaller, sound⟩ := fits
  rw [holding, noted] at notesOfCaller
  cases notesOfCaller
  obtain ⟨duty, later, soundAfter, atGoal⟩ :=
    reached machine _ _ sound (congrArg Part.duty holding)
  have sameEndings : (operation machine).2.endings call.response = machine.endings call.response := by
    unfold Machine.endings
    rw [sameHistory]
  refine ⟨Call.permits_of_same sameEndings, ⟨token.own, duty, some later⟩,
    Call.fits_note rfl rfl ?_, atGoal⟩
  have kept : Function.update (fun thread => (hands thread).own) call.thread token.own =
      fun thread => (hands thread).own := by
    rw [← holding]
    exact Function.update_eq_self call.thread _
  rw [kept]
  exact soundAfter

theorem Process.caller_read {view : Machine → Answer} {goal : Answer → Part → Prop}
    (noted : token.notes = some notes)
    (reached : ∀ machine duties owns, call.Sound arenas machine duties owns notes →
      goal (view machine) token) :
    (read view).Follows (call.discipline arenas) call.thread token goal := by
  refine follows_read fun machine hands fits holding => ?_
  obtain ⟨known, notesOfCaller, sound⟩ := fits
  rw [holding, noted] at notesOfCaller
  cases notesOfCaller
  exact reached machine _ _ sound

end Caller

/-- A context that is neither running nor waiting cannot begin to wait. -/
theorem ContextState.canMoveTo_waiting (state : ContextState) :
    state.canMoveTo .waiting = true ↔ state = .running := by
  cases state <;> simp [canMoveTo]

/-- A context is refused to be suspended only if it is neither running nor waiting. -/
theorem Arena.exists_of_suspend_error {arena : Arena} {id : ContextId} {fault : Fault}
    (refused : (arena.suspend id).1 = .error fault) :
    ∃ state, arena.state? id = some state ∧ state ≠ .waiting ∧ state ≠ .running ∧
      fault = .invalidTransition id (some state) .waiting := by
  cases isState : arena.state? id with
  | none =>
      simp only [suspend, isState] at refused
      cases refused
  | some state =>
      by_cases waits : state = .waiting
      · subst waits
        simp only [suspend, isState] at refused
        cases refused
      · have begins : (arena.beginWait id).1 = .error fault := by
          unfold suspend at refused
          rw [isState] at refused
          cases state <;> first | exact refused | exact absurd rfl waits
        have moves : ((arena.transition id .waiting).1.map fun _ => ()) = .error fault := by
          unfold beginWait at begins
          rw [if_neg fun same => waits (Option.some.inj (isState.symm.trans same))] at begins
          exact begins
        by_cases runs : state = .running
        · subst runs
          rw [(state?_transition isState rfl).1] at moves
          cases moves
        · refine ⟨state, rfl, waits, runs, ?_⟩
          obtain ⟨record, found, rfl⟩ := Option.map_eq_some_iff.mp isState
          have stuck : ¬ record.state.canMoveTo .waiting = true := fun moves =>
            runs ((ContextState.canMoveTo_waiting _).mp moves)
          unfold transition at moves
          rw [found] at moves
          simp only [stuck] at moves
          cases moves
          rfl

theorem Arena.state?_beginWait {arena : Arena} {id : ContextId}
    (runs : arena.state? id = some .running) :
    (arena.beginWait id).1 = .ok () ∧ (arena.beginWait id).2.state? id = some .waiting := by
  have moved := state?_transition runs (show ContextState.running.canMoveTo .waiting = true from rfl)
  unfold beginWait
  rw [if_neg (by rw [runs]; decide)]
  exact ⟨congrArg (Except.map fun _ => ()) moved.1, moved.2⟩

/-- A context of another arena than that of the machine is refused to wait, because the context that
has its name there is in no state in which it could. -/
def Context.RefusedToWait {Answer : Type} (parent : Context)
    (answer : Except Interruption Answer) : Prop :=
  parent.arena ≠ Machine.ownArena ∧ ∃ state, state ≠ .running ∧ state ≠ .waiting ∧
    answer = .error (.fault (.invalidTransition parent.id (some state) .waiting))

namespace Station

variable {arenas : Set ArenaKey} {call : Call} {station : Station}
  {interpreter : Interpreter} {token : Part} {notes : Notes}

theorem schedule_eq_spawn (reliable : station.policy.Reliable) (task : Task) :
    station.schedule task = Effect.modify (Machine.spawn task) := by
  have threaded := reliable.threaded
  have unfailing := reliable.unfailing
  have named := reliable.named task.context.id
  unfold schedule
  cases isPolicy : station.policy with
  | rehearsed order =>
      rw [isPolicy] at threaded
      cases threaded
  | ownThreads threadName stackSize failure =>
      obtain rfl := unfailing threadName stackSize failure isPolicy
      rw [isPolicy] at named
      simp only [named]
  | threadPool multiThreaded threadName size =>
      rw [isPolicy] at named
      simp only [named]

theorem registerContext_follows (free : token.duty = .none) (noted : token.notes = some notes)
    {worker : Worker} (isWorker : worker ∈ call.unit.workers) {locals : RegisterFile}
    (seeded : call.Seeded worker locals)
    (room : (notes.made.map Task.worker ++ [worker]).Subperm call.unit.workers)
    (inCaller : Bool) (label : String) {upset : Interruption → Part → Prop} :
    (registerContext call.parent.arena ⟨some call.parent.id, .created, label⟩).Follows
      (call.discipline arenas) call.thread token (fun id last =>
        last = ⟨token.own, .preparing (call.task worker locals inCaller id),
          some (notes.addTask (call.task worker locals inCaller id))⟩) upset := by
  refine Effect.follows_work (Process.caller_atomically noted (fun _ => rfl) ?_)
  intro machine duties owns sound isFree
  rw [free] at isFree
  have makes : call.Makes
      (call.task worker locals inCaller (machine.arena call.parent.arena).nextId) :=
    { response := rfl
      arena := rfl
      parent := rfl
      activity := rfl
      worker := isWorker
      locals := seeded
      results := rfl
      error := rfl }
  refine ⟨_, _, sound.register isFree makes rfl ?_ rfl, rfl⟩
  rw [List.map_append]
  exact room

theorem prepareTask_follows (unitSound : call.unit.Sound)
    (sized : call.source.sizes = call.unit.params.sizes) (free : token.duty = .none)
    (noted : token.notes = some notes) {worker : Worker}
    (isWorker : worker ∈ call.unit.workers)
    (room : (notes.made.map Task.worker ++ [worker]).Subperm call.unit.workers)
    (inCaller : Bool) :
    (prepareTask call.unit worker call.parent call.source call.unit.params.indices call.response
      inCaller).Follows (call.discipline arenas) call.thread token
        (fun task last => task.worker = worker ∧
          last = ⟨token.own, .holding task, some (notes.addTask task)⟩)
        fun _ _ => False := by
  obtain ⟨locals, seeded, localsSized, content⟩ :=
    Marshalling.exists_seed unitSound.params (unitSound.roomy worker isWorker) sized
  unfold prepareTask
  simp only [seeded, Effect.ofAccess, pure_bind]
  refine (registerContext_follows free noted isWorker ⟨localsSized, content⟩ room inCaller _).bind ?_
  rintro id _ rfl
  refine (tally_spared Tallies.addContext).bind ?_
  rintro _ _ rfl
  refine Effect.Follows.orElseRun_of_never ?_
  have moved : (moveContext call.parent.arena id .runnable).Follows (call.discipline arenas)
      call.thread ⟨token.own, .preparing (call.task worker locals inCaller id),
        some (notes.addTask (call.task worker locals inCaller id))⟩
      (fun outcome last => outcome = .ok .created ∧
        last = ⟨token.own, .holding (call.task worker locals inCaller id),
          some (notes.addTask (call.task worker locals inCaller id))⟩) fun _ _ => False := by
    refine Effect.follows_work (Process.caller_atomically rfl (fun _ => rfl) ?_)
    intro machine duties owns sound isDuty
    have unbegun : (duties call.thread).unbegun? =
        some (call.task worker locals inCaller id, .created) := by
      rw [isDuty]
      rfl
    have isCreated := sound.states _ _ (.unbegun unbegun)
    exact ⟨_, _, sound.ready isDuty, (Arena.state?_transition isCreated rfl).1, rfl⟩
  refine moved.bind ?_
  rintro _ _ ⟨rfl, rfl⟩
  exact ⟨rfl, rfl⟩

theorem schedule_follows (reliable : station.policy.Reliable) {task : Task}
    (holds : token.duty = .holding task) (noted : token.notes = some notes)
    {upset : Interruption → Part → Prop} :
    (station.schedule task).Follows (call.discipline arenas) call.thread token
      (fun _ last => last = ⟨token.own, .none, some notes⟩) upset := by
  rw [schedule_eq_spawn reliable]
  have spawned : (Process.atomically fun machine => ((), Machine.spawn task machine)).Follows
      (call.discipline arenas) call.thread token
      fun _ last => last = ⟨token.own, .none, some notes⟩ := by
    refine Process.caller_atomically noted (fun _ => rfl) ?_
    intro machine duties owns sound isDuty
    exact ⟨_, _, sound.spawn (isDuty.trans holds), rfl⟩
  exact Effect.follows_work spawned

/-- The caller makes a task for each of some workers, one after the other, and hands it to the
threads. -/
theorem scheduleWorkers_follows (reliable : station.policy.Reliable) (unitSound : call.unit.Sound)
    (sized : call.source.sizes = call.unit.params.sizes) (free : token.duty = .none)
    (noted : token.notes = some notes) {workers : List Worker}
    (room : (notes.made.map Task.worker ++ workers).Subperm call.unit.workers) :
    (station.scheduleWorkers call.unit call.parent call.source call.unit.params.indices
      call.response workers).Follows (call.discipline arenas) call.thread token
        (fun _ last => ∃ made, last = ⟨token.own, .none, some { notes with made := made }⟩ ∧
          made.map Task.worker = notes.made.map Task.worker ++ workers)
        fun _ _ => False := by
  induction workers generalizing token notes with
  | nil =>
      obtain ⟨own, duty, known⟩ := token
      cases free
      cases noted
      exact ⟨notes.made, rfl, (List.append_nil _).symm⟩
  | cons worker rest inductionHypothesis =>
      have isWorker : worker ∈ call.unit.workers :=
        room.subset (List.mem_append_right _ List.mem_cons_self)
      have firstRoom : (notes.made.map Task.worker ++ [worker]).Subperm call.unit.workers := by
        refine List.Subperm.trans (List.Sublist.subperm ?_) room
        exact List.Sublist.append_left (List.singleton_sublist.mpr List.mem_cons_self) _
      unfold scheduleWorkers
      refine (prepareTask_follows unitSound sized free noted isWorker firstRoom false).bind ?_
      rintro task _ ⟨rfl, rfl⟩
      refine (tally_spared Tallies.addScheduled).bind ?_
      rintro _ _ rfl
      refine (schedule_follows reliable rfl rfl).bind ?_
      rintro _ _ rfl
      have restRoom : ((notes.addTask task).made.map Task.worker ++ rest).Subperm
          call.unit.workers := by
        unfold Notes.addTask
        rw [List.map_append, List.append_assoc]
        exact room
      have goesOn := @inductionHypothesis ⟨token.own, .none, some (notes.addTask task)⟩
        (notes.addTask task) rfl rfl restRoom
      refine goesOn.weaken ?_ fun _ _ never => never
      rintro _ _ ⟨made, rfl, workers⟩
      refine ⟨made, rfl, workers.trans ?_⟩
      unfold Notes.addTask
      rw [List.map_append, List.append_assoc]
      rfl

/-- The caller makes a task for every worker and keeps the one of the first worker. -/
theorem dispatchAll_follows (reliable : station.policy.Reliable) (unitSound : call.unit.Sound)
    (sized : call.source.sizes = call.unit.params.sizes) (free : token.duty = .none)
    (noted : token.notes = some notes) (noneMade : notes.made = []) :
    (Effect.orElseRun (do
        station.scheduleWorkers call.unit call.parent call.source call.unit.params.indices
          call.response call.unit.scheduledWorkers
        let task ← prepareTask call.unit call.unit.callerWorker call.parent call.source
          call.unit.params.indices call.response true
        return (⟨call.unit, call.parent.id, call.response, some task⟩ : Invocation))
      (resumeParent call.parent.id)).Follows (call.discipline arenas) call.thread token
        (fun invocation last => ∃ task made,
          invocation = ⟨call.unit, call.parent.id, call.response, some task⟩ ∧
          last = ⟨token.own, .holding task, some { notes with made := made }⟩ ∧
          made.length = call.unit.workers.length)
        fun _ _ => False := by
  have scheduledRoom : (notes.made.map Task.worker ++ call.unit.scheduledWorkers).Subperm
      call.unit.workers := by
    rw [noneMade]
    exact (List.sublist_cons_self _ _).subperm
  refine Effect.Follows.orElseRun_of_never ?_
  refine (scheduleWorkers_follows reliable unitSound sized free noted scheduledRoom).bind ?_
  rintro _ _ ⟨made, rfl, workers⟩
  have callerRoom : (made.map Task.worker ++ [call.unit.callerWorker]).Subperm
      call.unit.workers := by
    rw [workers, noneMade]
    exact (List.perm_append_singleton _ _).subperm
  refine (prepareTask_follows unitSound sized rfl rfl List.mem_cons_self callerRoom true).bind ?_
  rintro task _ ⟨_, rfl⟩
  refine ⟨task, made ++ [task], rfl, rfl, ?_⟩
  have sameLength := congrArg List.length workers
  rw [noneMade, List.length_map] at sameLength
  rw [List.length_append, sameLength]
  rfl

/-! ## Joining -/

/-- The caller marks its parent as waiting while it joins the call, or finds that it cannot. -/
theorem suspend_follows (noted : token.notes = some notes)
    (waits : notes.parentState = some .waiting) :
    (Process.atomically (Machine.inArena Machine.ownArena fun records =>
      records.suspend call.parent.id)).Follows (call.discipline arenas) call.thread token
        fun suspended last =>
          (suspended = .ok () ∧
            last = ⟨token.own, token.duty, some { notes with parentState := none }⟩) ∨
          ∃ fault, suspended = .error fault ∧
            (∀ {Answer : Type}, call.parent.RefusedToWait (.error (.fault fault) : Except _ Answer)) ∧
            last = ⟨token.own, token.duty,
              some { notes with parentState := none, givenUp := true }⟩ := by
  refine Process.caller_atomically noted (fun _ => rfl) ?_
  intro machine duties owns sound sameDuty
  have alters := fun records : Arena => records.suspend_altersOnly call.parent.id
  have moved := sound.alterParent Machine.ownArena alters none fun _ never => by cases never
  have sameDuties : Function.update duties call.thread token.duty = duties := by
    rw [← sameDuty]
    exact Function.update_eq_self call.thread duties
  cases outcome : ((machine.arena Machine.ownArena).suspend call.parent.id).1 with
  | ok _ =>
      refine ⟨token.duty, { notes with parentState := none }, ?_, .inl ⟨outcome, rfl⟩⟩
      rw [sameDuties]
      exact moved
  | error fault =>
      refine ⟨token.duty, { notes with parentState := none, givenUp := true }, ?_,
        .inr ⟨fault, outcome, ?_, rfl⟩⟩
      · rw [sameDuties]
        exact moved.giveUp
      · intro Answer
        obtain ⟨state, isState, notWaiting, notRunning, rfl⟩ := Arena.exists_of_suspend_error outcome
        refine ⟨fun isOwn => ?_, state, notRunning, notWaiting, rfl⟩
        have expected := sound.states _ _ (.parent waits)
        change (machine.arena call.parent.arena).state? call.parent.id = _ at expected
        rw [isOwn, isState] at expected
        exact notWaiting (Option.some.inj expected)

/-- The caller lets its parent run again, when it does not count on it any more. -/
theorem resumeParent_follows (noted : token.notes = some notes)
    (uncounted : notes.parentState = none) :
    (resumeParent call.parent.id).Stays (call.discipline arenas) call.thread token
      fun _ => True := by
  have resumed : (Process.atomically fun machine => ((), machine.alterArena Machine.ownArena
      fun records => records.resume call.parent.id)).Follows (call.discipline arenas) call.thread
        token fun _ last => last = ⟨token.own, token.duty, some notes⟩ := by
    refine Process.caller_atomically noted (fun _ => rfl) ?_
    intro machine duties owns sound sameDuty
    have alters := fun records : Arena => records.resume_altersOnly call.parent.id
    have moved := sound.alterParent Machine.ownArena alters none fun _ never => by cases never
    refine ⟨token.duty, notes, ?_, rfl⟩
    rw [← sameDuty, Function.update_eq_self]
    rw [← uncounted] at moved
    exact moved
  refine Process.Follows.weaken resumed ?_
  rintro _ _ rfl
  rw [← noted]
  exact ⟨rfl, trivial⟩

theorem runFirst_follows {setup : Setup} (discreet : interpreter.Discreet arenas)
    (unitSound : call.unit.Sound) (depth : Nat) {task : Task} (holds : token.duty = .holding task)
    (noted : token.notes = some notes) (notGivenUp : notes.givenUp = false) :
    ((setup.station interpreter call.thread (depth + 1)).runFirst
      ⟨call.unit, call.parent.id, call.response, some task⟩).Follows (call.discipline arenas)
        call.thread token (fun _ last => last.duty = .none ∧ last.notes = some notes)
        fun _ _ => False := by
  unfold runFirst
  refine (tally_spared Tallies.addInCaller).bind ?_
  intro _ last same
  rw [same]
  have run : ((setup.station interpreter call.thread (depth + 1)).runInCaller task).Follows
      (call.discipline arenas) call.thread token
      (fun _ last => last.duty = .none ∧ last.notes = some notes) fun _ _ => False := by
    unfold runInCaller
    have ran : ((setup.station interpreter call.thread (depth + 1)).runTask task).Follows
        (call.discipline arenas) call.thread token
        (fun _ last => last.duty = .none ∧ last.notes = some notes) fun _ _ => False := by
      refine (carryOut_own discreet unitSound holds).weaken ?_ ?_
      · rintro _ _ ⟨free, sameNotes⟩
        exact ⟨free, sameNotes.trans noted⟩
      · rintro _ _ ⟨_, _, isGivenUp⟩
        have givenUp := isGivenUp notes rfl noted
        rw [notGivenUp] at givenUp
        cases givenUp
    refine ran.bind fun state last reached => ?_
    have told : (pure state : Effect ContextState).Follows (call.discipline arenas) call.thread last
        (fun _ last => last.duty = .none ∧ last.notes = some notes) fun _ _ => False :=
      reached
    split
    · have written : (Effect.modify (Machine.write (.ranInCaller task.context.id state))).Follows
          (call.discipline arenas) call.thread last (fun _ after => after = last)
          fun _ _ => False :=
        Effect.follows_work (Process.Follows.weaken (Process.spared_modify fun _ within =>
          Spares.of_same within rfl rfl rfl rfl) fun _ _ => And.left)
      refine written.bind fun _ after same => ?_
      rw [same]
      exact told
    · exact told
    · exact told
  exact run.bind fun _ _ reached => reached

theorem park_follows (reliable : station.policy.Reliable) (free : token.duty = .none)
    (noted : token.notes = some notes) (notGivenUp : notes.givenUp = false)
    (complete : notes.made.length = call.unit.workers.length) :
    (station.park call.response).Follows (call.discipline arenas) call.thread token
      (fun _ last => ∃ endings, last = ⟨token.own, .none,
        some { notes with settled := some endings }⟩) fun _ _ => False := by
  have waited : (Effect.waitUntil fun machine =>
      (machine.response call.response).outstanding = 0).Follows (call.discipline arenas)
        call.thread token (fun _ last => ∃ endings, last = ⟨token.own, .none,
          some { notes with settled := some endings }⟩) fun _ _ => False := by
    refine Effect.follows_waitUntil ?_ ?_
    · intro machine hands fits holding notReady _
      obtain ⟨known, notesOfCaller, sound⟩ := fits
      rw [holding, noted] at notesOfCaller
      cases notesOfCaller
      have outstanding : (machine.response call.response).outstanding ≠ 0 :=
        of_decide_eq_false notReady
      rw [sound.gathered notGivenUp] at outstanding
      have someLeft : call.unit.workers.length - (machine.endings call.response).length ≠ 0 :=
        outstanding
      have fewer : ((machine.endings call.response).map Ending.task).length < notes.made.length := by
        rw [List.length_map, complete]
        omega
      obtain ⟨task, isMade, notEnded⟩ := Ledger.exists_unended (sound.distinct.of_map _) fewer
      refine ⟨Nat.lt_of_sub_ne_zero someLeft, task, sound.makes task isMade, notEnded, ?_⟩
      rcases sound.ledger.attended notGivenUp task isMade with waits | ⟨other, inCharge⟩ | ended
      · exact .inl waits
      · refine .inr (.inl ⟨other, ?_, inCharge⟩)
        rintro rfl
        rw [holding, free] at inCharge
        cases inCharge
      · exact absurd ended notEnded
    · intro machine hands fits holding isReady
      obtain ⟨known, notesOfCaller, sound⟩ := fits
      rw [holding, noted] at notesOfCaller
      cases notesOfCaller
      refine ⟨_, Call.fits_note rfl rfl ?_, machine.endings call.response, rfl⟩
      have isFree : (hands call.thread).duty = .none := by
        rw [holding]
        exact free
      have sameDuties : Function.update (fun thread => (hands thread).duty) call.thread .none =
          fun thread => (hands thread).duty := by
        rw [← isFree]
        exact Function.update_eq_self call.thread _
      have sameOwns : Function.update (fun thread => (hands thread).own) call.thread token.own =
          fun thread => (hands thread).own := by
        rw [← holding]
        exact Function.update_eq_self call.thread _
      rw [sameDuties, sameOwns]
      exact sound.settle notGivenUp (of_decide_eq_true isReady)
  have threaded := reliable.threaded
  unfold park
  cases isPolicy : station.policy with
  | rehearsed order =>
      rw [isPolicy] at threaded
      cases threaded
  | ownThreads threadName stackSize failure =>
      exact waited
  | threadPool multiThreaded threadName size =>
      exact waited

theorem settle_follows {setup : Setup} (discreet : interpreter.Discreet arenas)
    (reliable : setup.policy.Reliable) (unitSound : call.unit.Sound) (depth : Nat) {task : Task}
    (holds : token.duty = .holding task) (noted : token.notes = some notes)
    (notGivenUp : notes.givenUp = false) (uncounted : notes.parentState = none)
    (complete : notes.made.length = call.unit.workers.length) :
    ((setup.station interpreter call.thread (depth + 1)).settle
      ⟨call.unit, call.parent.id, call.response, some task⟩).Follows (call.discipline arenas)
        call.thread token (fun outcome last => ∃ endings, last.duty = .none ∧
          last.notes = some { notes with settled := some endings } ∧
          outcome = (call.unit.gathered endings).outcome) fun _ _ => False := by
  unfold settle
  refine (runFirst_follows discreet unitSound depth holds noted notGivenUp).bind ?_
  rintro _ last ⟨free, stillNoted⟩
  refine Effect.Follows.bind (park_follows reliable free stillNoted notGivenUp complete) ?_
  rintro _ _ ⟨endings, rfl⟩
  have resumed : (liftM (resumeParent call.parent.id) : Effect Unit).Follows
      (call.discipline arenas) call.thread
      ⟨last.own, .none, some { notes with settled := some endings }⟩
      (fun _ after => after = ⟨last.own, .none, some { notes with settled := some endings }⟩)
      fun _ _ => False :=
    Effect.follows_work (Process.Follows.weaken (resumeParent_follows rfl uncounted)
      fun _ _ => And.left)
  refine resumed.bind ?_
  rintro _ _ rfl
  refine Effect.follows_work (Process.caller_read rfl ?_)
  intro machine duties owns sound
  refine ⟨endings, rfl, rfl, ?_⟩
  rw [sound.gathered notGivenUp, (sound.settled endings rfl).1]

def told (returns : Layout) :
    Except Interruption Unit × RegisterFile → Except Interruption (List Value)
  | (.error interruption, _) => .error interruption
  | (.ok (), results) =>
    match Marshalling.raise returns results with
    | .ok values => .ok values
    | .error overrun => .error overrun.interruption

theorem told_of_raise {returns : Layout} {results : RegisterFile} {values : List Value}
    (raises : Marshalling.raise returns results = .ok values) :
    told returns (.ok (), results) = .ok values := by
  simp only [told, raises]

theorem deliver_follows {endings : List Ending} (unitSound : call.unit.Sound)
    (noted : token.notes = some notes) (notGivenUp : notes.givenUp = false)
    (settled : notes.settled = some endings) (invocation : Invocation)
    (sameResponse : invocation.response = call.response) :
    (deliver invocation (call.unit.gathered endings).outcome (.ofSizes call.unit.returns.sizes)
      call.unit.returns.indices).Follows (call.discipline arenas) call.thread token
        fun answer last => last = token ∧
          told call.unit.returns answer = call.unit.verdict endings := by
  unfold deliver Response.outcome Callable.verdict
  cases faulted : endings.findSome? fun ending => ending.fault? call.unit ending.worker with
  | some fault =>
      have isFault : (call.unit.gathered endings).fault = some fault := faulted
      rw [isFault]
      exact ⟨rfl, rfl⟩
  | none =>
      have noFault : (call.unit.gathered endings).fault = none := faulted
      rw [noFault]
      cases raised : endings.findSome? fun ending => ending.raised? call.unit ending.worker with
      | some error =>
          have isError : (call.unit.gathered endings).error = some error := raised
          rw [isError]
          exact ⟨rfl, rfl⟩
      | none =>
          have noError : (call.unit.gathered endings).error = none := raised
          rw [noError]
          have looked : (Process.read fun machine : Machine =>
              (machine.response invocation.response).deliverInto
                (.ofSizes call.unit.returns.sizes) call.unit.returns.indices).Follows
              (call.discipline arenas) call.thread token fun answer last => last = token ∧
                answer = (call.unit.gathered endings).deliverInto
                  (.ofSizes call.unit.returns.sizes) call.unit.returns.indices ∧
                ∀ ending ∈ endings, ending.Proper call.unit := by
            refine Process.caller_read noted fun machine duties owns sound => ?_
            obtain ⟨sameEndings, _⟩ := sound.settled endings settled
            have proper := sound.proper
            have gathered := sound.gathered notGivenUp
            rw [sameEndings] at proper gathered
            refine ⟨rfl, ?_, proper⟩
            rw [sameResponse, gathered]
          refine Process.Follows.bind looked ?_
          rintro _ _ ⟨rfl, rfl, proper⟩
          obtain ⟨delivered, values, delivers, raises, rfl⟩ := raise_gathered unitSound proper
          rw [delivers]
          exact ⟨rfl, told_of_raise raises⟩

/-- What the caller of a unit is told in the end: the verdict on the endings of all workers, unless
its parent was refused to wait. -/
def Told (call : Call) (answer : Except Interruption (List Value)) (last : Part) : Prop :=
  last.duty = .none ∧ ∃ notes, last.notes = some notes ∧
    ((∃ endings, notes.settled = some endings ∧ answer = call.unit.verdict endings) ∨
      call.parent.RefusedToWait answer)

/-- A caller whose parent is refused to wait gives the call up, and drops the task that it has
kept. -/
theorem abandon_follows {task : Task} (holds : token.duty = .holding task)
    (noted : token.notes = some notes) (uncounted : notes.parentState = none)
    (givenUp : notes.givenUp = true) :
    (Invocation.abandon ⟨call.unit, call.parent.id, call.response, some task⟩).Follows
      (call.discipline arenas) call.thread token
      fun _ last => last.duty = .none ∧ last.notes = some notes := by
  unfold Invocation.abandon
  refine Process.Follows.bind (Process.Follows.weaken (resumeParent_follows noted uncounted)
    fun _ _ => And.left) ?_
  intro _ last same
  rw [same]
  unfold Task.dispose
  have dropped : (Process.modify fun machine : Machine =>
      (machine.contribute task.response task.context.id (.faulted task.droppedFault)
        task.context.results).2).Follows (call.discipline arenas) call.thread token
      fun _ last => last = ⟨.ofContext task.context, .none, some notes⟩ := by
    refine Process.follows_modify fun machine hands fits holding => ?_
    obtain ⟨known, notesOfCaller, sound⟩ := fits
    rw [holding, noted] at notesOfCaller
    cases notesOfCaller
    have hasDuty : (hands call.thread).duty = .holding task := by
      rw [holding]
      exact holds
    exact ⟨Call.permits_of_same rfl, _, Call.fits_note rfl rfl (sound.drop hasDuty givenUp _ _ _), rfl⟩
  refine Process.Follows.bind dropped ?_
  rintro _ _ rfl
  refine Process.Follows.weaken (Context.release_spared rfl) ?_
  rintro _ _ ⟨rfl, _⟩
  exact ⟨rfl, rfl⟩

theorem join_follows {setup : Setup} (discreet : interpreter.Discreet arenas)
    (reliable : setup.policy.Reliable) (unitSound : call.unit.Sound) (depth : Nat) {task : Task}
    (holds : token.duty = .holding task) (noted : token.notes = some notes)
    (notGivenUp : notes.givenUp = false) (waits : notes.parentState = some .waiting)
    (complete : notes.made.length = call.unit.workers.length) :
    ((setup.station interpreter call.thread (depth + 1)).join
      ⟨call.unit, call.parent.id, call.response, some task⟩ (.ofSizes call.unit.returns.sizes)
      call.unit.returns.indices).Follows (call.discipline arenas) call.thread token
        fun answer last => Told call (told call.unit.returns answer) last := by
  unfold join
  refine Process.Follows.bind (suspend_follows noted waits) ?_
  rintro suspended _ (⟨rfl, rfl⟩ | ⟨fault, rfl, refused, rfl⟩)
  · refine Process.Follows.bind (settle_follows discreet reliable unitSound depth holds rfl notGivenUp
      rfl complete) ?_
    intro outcome last reached
    cases outcome with
    | error interruption =>
        exact reached.elim
    | ok outcome =>
        obtain ⟨endings, free, stillNoted, rfl⟩ := reached
        refine Process.Follows.bind (deliver_follows unitSound stillNoted notGivenUp rfl _ rfl) ?_
        intro answer after reached
        obtain ⟨same, isVerdict⟩ := reached
        rw [same]
        have resumed : (Invocation.abandon ⟨call.unit, call.parent.id, call.response, none⟩).Follows
            (call.discipline arenas) call.thread last fun _ after => after = last :=
          Process.Follows.bind (Process.Follows.weaken (resumeParent_follows stillNoted rfl)
            fun _ _ => And.left) fun _ _ same => same
        refine Process.Follows.bind resumed ?_
        intro _ after same
        rw [same]
        exact ⟨free, _, stillNoted, .inl ⟨endings, rfl, isVerdict⟩⟩
  · refine Process.Follows.bind (abandon_follows holds rfl rfl rfl) ?_
    rintro _ last ⟨free, stillNoted⟩
    exact ⟨free, _, stillNoted, .inr refused⟩

/-! ## The whole call -/

/-- What is left of a call once its response has been opened. -/
def afterOpening (station : Station) (call : Call) : Effect (List Value) := do
  Effect.ofExcept (← Effect.atomically
    (Machine.inArena call.parent.arena fun records => records.beginWait call.parent.id))
  let invocation ← Effect.orElseRun (do
      station.scheduleWorkers call.unit call.parent call.source call.unit.params.indices
        call.response call.unit.scheduledWorkers
      let task ← prepareTask call.unit call.unit.callerWorker call.parent call.source
        call.unit.params.indices call.response true
      return (⟨call.unit, call.parent.id, call.response, some task⟩ : Invocation))
    (resumeParent call.parent.id)
  let (outcome, results) ← (station.join invocation (.ofSizes call.unit.returns.sizes)
    call.unit.returns.indices : Work _)
  ExceptT.mk (pure outcome)
  Effect.ofAccess (Marshalling.raise call.unit.returns results)

/-- A call whose arguments match the parameters begins with opening its response. -/
theorem callValues_eq {unit : Callable} {parent : Context} {arguments : List Value}
    {source : RegisterFile} (arity : unit.params.length = arguments.length)
    (lowered : Marshalling.lower unit.params arguments = .ok source) (thread : ThreadId) :
    station.callValues unit parent arguments =
      (do
        let response ← Effect.atomically
          (Machine.openResponse unit.returns true unit.workers.length)
        station.afterOpening ⟨unit, parent, source, thread, response⟩) := by
  have indices : unit.params.indices.length = arguments.length := by
    rw [← arity]
    exact List.length_map _
  have checked : unit.checkArity arguments.length = .ok () := by
    unfold Callable.checkArity
    rw [if_pos arity]
  unfold callValues dispatch afterOpening
  rw [lowered, indices, checked]
  simp only [Effect.ofExcept, pure_bind, if_true, bind_assoc]
  rfl

theorem afterOpening_follows {setup : Setup} (discreet : interpreter.Discreet arenas)
    (reliable : setup.policy.Reliable) (unitSound : call.unit.Sound)
    (sized : call.source.sizes = call.unit.params.sizes) (depth : Nat) (free : token.duty = .none)
    (noted : token.notes = some Call.firstNotes) :
    ((setup.station interpreter call.thread (depth + 1)).afterOpening call).run.Follows
      (call.discipline arenas) call.thread token (Told call) := by
  have began : (Effect.atomically (Machine.inArena call.parent.arena fun records =>
      records.beginWait call.parent.id)).Follows (call.discipline arenas) call.thread token
        (fun outcome last => outcome = .ok () ∧ last = ⟨token.own, .none,
          some { Call.firstNotes with parentState := some .waiting }⟩) fun _ _ => False := by
    refine Effect.follows_work (Process.caller_atomically noted (fun _ => rfl) ?_)
    intro machine duties owns sound isFree
    have runs := sound.states call.parent.place .running (.parent rfl)
    obtain ⟨begins, waits⟩ := Arena.state?_beginWait runs
    refine ⟨.none, _, ?_, begins, rfl⟩
    rw [← free, ← isFree, Function.update_eq_self]
    refine sound.alterParent call.parent.arena
      (fun records => records.beginWait_altersOnly call.parent.id) (some .waiting) ?_
    rintro state same
    cases same
    refine ⟨rfl, ?_⟩
    rw [machine.stateIn?_alterArena_self]
    exact waits
  have followed : ((setup.station interpreter call.thread (depth + 1)).afterOpening call).Follows
      (call.discipline arenas) call.thread token (fun values => Told call (.ok values))
      fun interruption => Told call (.error interruption) := by
    unfold afterOpening
    refine began.of_never.bind ?_
    rintro _ _ ⟨rfl, rfl⟩
    simp only [Effect.ofExcept, pure_bind]
    refine Effect.Follows.bind (dispatchAll_follows reliable unitSound sized rfl rfl rfl).of_never ?_
    rintro _ _ ⟨task, made, rfl, rfl, complete⟩
    refine Effect.Follows.bind (Effect.follows_work
      (join_follows discreet reliable unitSound depth rfl rfl rfl rfl complete)) ?_
    rintro ⟨outcome, results⟩ last isTold
    cases outcome with
    | error interruption =>
        exact isTold
    | ok _ =>
        refine Effect.follows_ofAccess ?_ ?_
        · intro values raises
          rw [told_of_raise raises] at isTold
          exact isTold
        · intro overrun fails
          have overran : told call.unit.returns (.ok (), results) =
              .error overrun.interruption := by
            simp only [told, fails]
          rw [← overran]
          exact isTold
  refine Process.Follows.weaken followed ?_
  intro outcome last reached
  cases outcome with
  | ok values =>
      exact reached
  | error interruption =>
      exact reached

end Station

end WorkerMachine
