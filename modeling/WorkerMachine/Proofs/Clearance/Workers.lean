import WorkerMachine.Proofs.Clearance.Scripts
import WorkerMachine.Proofs.Machine.Threads
/-!
# Workers and clearance

A worker starts in a context below the one that calls its unit, so its context is cleared as well.
When its script has ended, nothing is left in the hand of the thread of what was there for it.
-/

namespace WorkerMachine

open Clearance

/-- Every body that an interpreter carries out is between calls when it begins and when it ends. -/
def Interpreter.Clears (interpreter : Interpreter) : Prop :=
  ∀ (station : Station), station.RunsTasks → station.policy.NamesThreads →
    station.program.Sound → ∀ (home : Context) (activity : Activity) (rest : Hand),
      home.arena = Machine.ownArena → activity.role.MayClaim →
        (interpreter station).Rests station.thread home activity rest

theorem Script.interpreter_clears (bodies : Table BodyKey (List Script.Instruction)) :
    (Script.interpreter bodies).Clears :=
  fun _ tasks named sound _ _ _ isOwn mayClaim =>
    Script.interpreter_rests tasks named sound isOwn mayClaim bodies

variable {thread : ThreadId} {activity : Activity} {rest : Hand} {task : Task} {station : Station}
  {machine : Machine} {activities : Activities}

/-! ## The steps of a task -/

theorem Clearance.Sound.admits_task (sound : Sound machine.scene activities)
    (found : activities task.context.id = some activity) (role : activity.role = .worker task)
    {unit : Callable} {worker : Worker} (isUnit : task.context.activity = some (unit, worker)) :
    machine.Admits unit.package task.context.id := by
  obtain ⟨parent, above, call, isParent, isAbove, _, _, expects, _, _, cleared, _⟩ :=
    sound.exists_call found role
  obtain ⟨own, ofUnit⟩ := expects.ofUnit
  rw [isUnit] at ofUnit
  cases ofUnit
  refine sound.admits found (fun leaving => ?_) ?_
  · rw [role] at leaving
    cases leaving
  · rcases cleared with initialized | ⟨mark, isMark, descends⟩
    · exact .inl initialized
    · exact .inr ⟨mark, isMark, .head ⟨activity, found, isParent⟩ descends⟩

/-- A worker begins whose context may begin to run. -/
theorem Machine.startTask_of_moves (machine : Machine) {task : Task} {state : ContextState}
    (isOwn : task.context.arena = ownArena)
    (moved : ((machine.arena ownArena).transition task.context.id .running).1 = .ok state) :
    machine.startTask task = (.ok state,
      (machine.setArena ownArena ((machine.arena ownArena).transition task.context.id
        .running).2).record (.started task)) := by
  have both : (machine.arena ownArena).transition task.context.id .running =
      (.ok state, ((machine.arena ownArena).transition task.context.id .running).2) :=
    Prod.ext moved rfl
  unfold startTask inArena
  rw [isOwn]
  dsimp only
  rw [both]

theorem startTask_follows {upset : Interruption → Hand → Prop} :
    (Effect.atomically (Machine.startTask task)).Follows .clearing thread
      ((task.context.id, task.activity (some thread) .runnable) :: rest)
      (fun answer last => answer = .ok .runnable ∧ task.context.arena = Machine.ownArena ∧
        last = (task.context.id, task.activity (some thread) .running) :: rest) upset := by
  refine Effect.follows_exchanging fun machine activities known => ?_
  have found := known.2 _ List.mem_cons_self
  have isOwn : task.context.arena = Machine.ownArena := (known.1.tree.suits _ _ found).2.1
  obtain ⟨answer, standing, nextId⟩ := Arena.transition_of_standing? known.standing
    (show ContextState.runnable.canMoveTo .running = true from rfl)
  rw [machine.startTask_of_moves isOwn answer]
  refine ⟨⟨fun _ _ => id, [.started task], rfl, ?_⟩, _, ?_, rfl, isOwn, rfl⟩
  · intro other isStarted unit worker isUnit
    cases isStarted with
    | head => exact known.1.admits_task found rfl isUnit
    | tail _ never => cases never
  · have moved : Exchanges machine (machine.setArena Machine.ownArena
          ((machine.arena Machine.ownArena).transition task.context.id .running).2) thread
        ((task.context.id, task.activity (some thread) .runnable) :: rest)
        ((task.context.id, task.activity (some thread) .running) :: rest) :=
      exchanges_move standing nextId
    exact moved.trans (exchanges_same rfl rfl)

theorem Task.mayClaim {owner : Option ThreadId} {state : ContextState} :
    (task.activity owner state).role.MayClaim :=
  ⟨nofun, fun _ => nofun⟩

theorem finish_follows {context : Context} (isId : context.id = task.context.id)
    (isOwn : context.arena = Machine.ownArena) {hand : Hand}
    (idle : (task.activity (some thread) .running).Idle task.context.id rest hand)
    (outcome : WorkerOutcome) {upset : Interruption → Hand → Prop} :
    (Effect.modify (Machine.alterArena context.arena fun records =>
      records.finish context.id outcome.lastState)).Follows .clearing thread hand
      (fun _ last =>
        last = (task.context.id, task.activity (some thread) outcome.lastState) :: rest) upset := by
  obtain ⟨pursuit, isIdle, rfl⟩ := idle
  refine Effect.follows_work (Process.follows_exchanging_modify fun machine activities known => ?_)
  have mayFinish : ContextState.running.canMoveTo outcome.lastState = true := by
    cases outcome <;> rfl
  have standing := known.standing
  obtain ⟨_, moved, nextId⟩ := Arena.transition_of_standing? standing mayFinish
  have finished : (machine.arena Machine.ownArena).finish task.context.id outcome.lastState =
      ((machine.arena Machine.ownArena).transition task.context.id outcome.lastState).2 := by
    unfold Arena.finish Arena.resume
    rw [Arena.state?_of_standing? standing, if_neg nofun]
  unfold Machine.alterArena
  rw [isOwn, isId]
  dsimp only
  rw [finished]
  refine ⟨machine.permits_setArena _, Exchanges.trans (exchanges_idle Task.mayClaim isIdle) ?_⟩
  exact @exchanges_move _ machine _ (task.activity (some thread) .running) rest _ _ moved nextId

theorem endTask_follows {context : Context} (left : task.context.LeftAs context)
    (outcome : Except Interruption WorkerExit) {state : ContextState}
    {upset : Interruption → Hand → Prop} :
    (Effect.atomically (Machine.endTask task outcome context)).Follows .clearing thread
      ((task.context.id, task.activity (some thread) state) :: rest)
      (fun answer last => (∃ completes, answer = .ok completes) ∧
        last = (task.context.id,
          { task.activity (some thread) state with role := .leaving }) :: rest) upset := by
  refine Effect.follows_exchanging fun machine activities known => ?_
  unfold Machine.endTask
  rw [left.id]
  have recorded : Exchanges machine (machine.record (.ended task outcome context)) thread
      ((task.context.id, task.activity (some thread) state) :: rest)
      ((task.context.id, task.activity (some thread) state) :: rest) :=
    exchanges_same rfl rfl
  have sound : Sound (machine.record (.ended task outcome context)).scene activities := known.1
  have accepted := sound.contribution (known.2 _ List.mem_cons_self) rfl rfl (judge context outcome)
    left.sized
  refine ⟨⟨fun _ _ => id, [.ended task outcome context], rfl, ?_⟩,
    (task.context.id, { task.activity (some thread) state with role := .leaving }) :: rest,
    recorded.trans (exchanges_head rfl id fun _ later => ?_), accepted.1, rfl⟩
  · intro other isStarted
    cases isStarted with
    | tail _ never => cases never
  · exact (later.1.contribution (later.2 _ List.mem_cons_self) rfl rfl _ left.sized).2.2

/-! ## Whole tasks -/

/-- A task is run, and nothing is left of it in hand. -/
theorem Station.carryOut_follows (tasks : station.RunsTasks) (named : station.policy.NamesThreads)
    (sound : station.program.Sound) {interpreter : Interpreter} (clears : interpreter.Clears)
    (task : Task) (rest : Hand) :
    (station.carryOut interpreter task).Follows .clearing station.thread
      ((task.context.id, task.activity (some station.thread) .runnable) :: rest)
      (fun _ last => last = rest) fun _ _ => False := by
  have ran : ∀ hand, (task.activity (some station.thread) .running).Idle task.context.id rest hand →
      task.context.arena = Machine.ownArena →
        ((interpreter station).runOn task.context).Follows .clearing station.thread hand
          fun answer last => task.context.LeftAs answer.2 ∧
            (task.activity (some station.thread) .running).Idle task.context.id rest last := by
    intro hand idle isOwn
    refine Process.Follows.weaken (clears station tasks named sound task.context _ rest isOwn
      Task.mayClaim task.context hand ⟨rfl, rfl, rfl, rfl⟩ idle) ?_
    rintro ⟨outcome, after⟩ last reached
    cases outcome with
    | ok _ => exact reached
    | error _ => exact reached
  unfold carryOut
  -- However the body ends, the context is leaving by then, and only its release is left.
  refine Effect.Follows.followedBy (?_ : Effect.Follows _ _ _ _
      (fun _ last => task.context.arena = Machine.ownArena ∧ ∃ state,
        last = (task.context.id,
          { task.activity (some station.thread) state with role := .leaving }) :: rest)
      fun _ _ => False) ?_
  · refine Effect.Follows.bind startTask_follows ?_
    rintro _ _ ⟨rfl, isOwn, rfl⟩
    refine Effect.Follows.bind (Effect.follows_work (ran _ ⟨.nothing, id, rfl⟩ isOwn)) ?_
    rintro ⟨outcome, after⟩ hand ⟨left, idle⟩
    refine Effect.Follows.bind (finish_follows left.id (left.arena.trans isOwn) idle _) ?_
    rintro _ _ rfl
    refine Effect.Follows.bind (endTask_follows left outcome) ?_
    rintro _ _ ⟨⟨completes, rfl⟩, rfl⟩
    exact ⟨isOwn, _, rfl⟩
  · intro outcome hand reached
    cases outcome with
    | error interruption =>
        exact reached.elim
    | ok state =>
        obtain ⟨isOwn, last, rfl⟩ := reached
        exact Context.release_follows isOwn rfl

/-! ## Threads -/

theorem Setup.toSetup_station (setup : Setup) (interpreter : Interpreter) (thread : ThreadId)
    (depth : Nat) : (setup.station interpreter thread depth).toSetup = setup := by
  cases depth <;> rfl

theorem Setup.station_runsTasks (setup : Setup) (named : setup.policy.NamesThreads)
    (sound : setup.program.Sound) {interpreter : Interpreter} (clears : interpreter.Clears)
    (thread : ThreadId) (depth : Nat) : (setup.station interpreter thread depth).RunsTasks := by
  induction depth with
  | zero =>
      exact fun _ _ => Effect.follows_stall fun _ _ _ _ => trivial
  | succ depth inductionHypothesis =>
      intro task rest
      have carried := (setup.station interpreter thread depth).carryOut_follows inductionHypothesis
        (by rw [Setup.toSetup_station]; exact named) (by rw [Setup.toSetup_station]; exact sound)
        clears task rest
      rw [Setup.thread_station] at carried
      exact carried

/-- Threads that are started for tasks take them up, and leave nothing behind. -/
theorem Setup.starts_welcoming_clearing {Answer : Type} (setup : Setup)
    (named : setup.policy.NamesThreads) (sound : setup.program.Sound) {interpreter : Interpreter}
    (clears : interpreter.Clears) (depth : Nat) :
    Crowd.Welcoming .clearing [] (fun _ _ _ => True)
      (setup.Starts interpreter depth : Arrivals ThreadId Machine (Option Answer)) := by
  intro machine hands thread process after fits isIdle starts
  cases starts with
  | @start _ _ front rest task nextThread isSpawned =>
      have taken : Exchanges machine
          { machine with spawned := front ++ rest, nextThread := nextThread } thread []
          [(task.context.id, task.activity (some thread) .runnable)] := by
        refine exchanges_take rfl ?_
        unfold Machine.waitingTasks
        rw [isSpawned, List.append_assoc, List.append_assoc]
        exact List.perm_middle
      refine ⟨Machine.permits_of_quiet rfl fun _ _ => id, _, taken hands fits isIdle, ?_⟩
      have ran := setup.station_runsTasks named sound clears thread depth task []
      rw [Setup.thread_station] at ran
      have counted : ∀ (panicked : Bool) (hand : Hand),
          (Process.modify (Machine.countEnded panicked)).Follows .clearing thread hand
            fun _ _ => True :=
        fun _ _ => Process.Follows.weaken (Process.inert_modify fun _ => ⟨rfl, rfl, rfl⟩)
          fun _ _ _ => trivial
      refine Process.Follows.bind (Process.Follows.bind ran fun _ hand _ => counted _ hand) ?_
      exact fun _ _ _ => trivial

end WorkerMachine
