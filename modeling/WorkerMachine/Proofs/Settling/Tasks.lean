import WorkerMachine.Proofs.Clearance.Scripts
import WorkerMachine.Proofs.Settling.Steps
/-!
# Tasks and the books

A task that a thread has in hand becomes ready, starts, ends and contributes, or is dropped before it
starts and contributes nevertheless.  Either way nothing is left of it in hand.
-/

namespace WorkerMachine

open Settling

variable {Answer : Type} {thread : ThreadId} {token rest : Settling.Hand} {task : Task}
  {machine later : Machine} {docket : Docket} {response : ResponseId} {station : Station}

/-- On a station every task that is ready may be run, after which it is no longer in hand. -/
def Station.SettlesTasks (station : Station) : Prop :=
  ∀ (task : Task) (rest : Settling.Hand),
    (station.runTask task).Follows .settling station.thread (.task task .ready :: rest)
      (fun _ last => last = rest) fun _ _ => False

/-- A process keeps the books, and leaves the hand of the thread as it is. -/
def Process.Settles (thread : ThreadId) (work : Work Answer) (goal : Answer → Prop) : Prop :=
  ∀ token, work.Stays .settling thread token goal

/-- Every body that an interpreter carries out keeps the books, and leaves the results of its context
their sizes. -/
def Interpreter.Settles (interpreter : Interpreter) : Prop :=
  ∀ (station : Station), station.SettlesTasks → station.program.Sound → ∀ context : Context,
    ((interpreter station).runOn context).Settles station.thread fun answer =>
      context.LeftAs answer.2

/-! ## The life of a task -/

theorem moveTask_settles {upset : Interruption → Settling.Hand → Prop} :
    (moveContext task.context.arena task.context.id .runnable).Follows .settling thread
      (.task task .created :: rest)
      (fun answer last => answer = .ok .created ∧ last = .task task .ready :: rest) upset := by
  apply Effect.follows_atomically
  intro machine hands fits holding
  obtain ⟨books, agree⟩ := fits
  obtain ⟨_, _, _, isCreated, _⟩ := agree.ofTask holding
  obtain ⟨answer, moved⟩ := Arena.state?_transition isCreated
    (show ContextState.created.canMoveTo .runnable = true from rfl)
  have quiet : Quiet (some task.context.place) machine (machine.alterArena task.context.arena
      fun records => (records.transition task.context.id .runnable).2) :=
    quiet_of_altersOnly (Arena.transition_altersOnly _ task.context.id .runnable)
  have isReady : Stage.ready.Allows ((machine.alterArena task.context.arena fun records =>
      (records.transition task.context.id .runnable).2).stateIn? task.context.arena
        task.context.id) := by
    rw [Machine.stateIn?_alterArena_self]
    exact moved
  exact ⟨quiet.proceeds, _, ⟨books, agree.move holding quiet isReady rfl⟩, answer, rfl⟩

theorem Settling.Quiet.proceeds_record {place : Option (ArenaKey × ContextId)}
    (quiet : Quiet place machine later) (happening : Happening) :
    Proceeds machine (later.record happening) where
  history := quiet.proceeds.history.trans (List.suffix_cons happening later.history)
  opened := quiet.proceeds.opened
  responses := fun response _ => .inl (quiet.sameResponse response)

theorem startTask_settles {upset : Interruption → Settling.Hand → Prop} :
    (Effect.atomically (Machine.startTask task)).Follows .settling thread
      (.task task .ready :: rest)
      (fun answer last => answer = .ok .runnable ∧ last = .task task .begun :: rest) upset := by
  apply Effect.follows_atomically
  intro machine hands fits holding
  obtain ⟨books, agree⟩ := fits
  obtain ⟨_, _, _, isReady, _⟩ := agree.ofTask holding
  obtain ⟨answer, moved⟩ := Arena.state?_transition isReady
    (show ContextState.runnable.canMoveTo .running = true from rfl)
  let running := machine.alterArena task.context.arena fun records =>
    (records.transition task.context.id .running).2
  have started : machine.startTask task = (.ok .runnable, running.record (.started task)) := by
    have split : (machine.arena task.context.arena).transition task.context.id .running =
        (.ok .runnable, ((machine.arena task.context.arena).transition task.context.id
          .running).2) :=
      Prod.ext answer rfl
    unfold Machine.startTask Machine.inArena
    dsimp only
    rw [split]
    rfl
  have quiet : Quiet (some task.context.place) machine running :=
    quiet_of_altersOnly (Arena.transition_altersOnly _ task.context.id .running)
  have isRunning : Stage.entered.Allows
      (running.stateIn? task.context.arena task.context.id) := by
    left
    rw [Machine.stateIn?_alterArena_self]
    exact moved
  have noted := (agree.move holding quiet isRunning rfl).noteStart (Function.update_self ..)
  rw [Function.update_idem] at noted
  rw [started]
  exact ⟨quiet.proceeds_record _, _, ⟨books, noted⟩, rfl, rfl⟩

/-- The context of a task whose body has ended reaches its last state. -/
theorem finish_settles {context : Context} (left : task.context.LeftAs context)
    (outcome : WorkerOutcome) {upset : Interruption → Settling.Hand → Prop} :
    (Effect.modify (Machine.alterArena context.arena fun records =>
      records.finish context.id outcome.lastState)).Follows .settling thread
        (.task task .begun :: rest)
        (fun _ last => last = .task task (.finished outcome) :: rest) upset := by
  apply Effect.follows_modify
  intro machine hands fits holding
  obtain ⟨books, agree⟩ := fits
  obtain ⟨_, _, _, isActive, _⟩ := agree.ofTask holding
  rw [left.arena, left.id]
  have quiet : Quiet (some task.context.place) machine (machine.alterArena task.context.arena
      fun records => records.finish task.context.id outcome.lastState) :=
    quiet_of_altersOnly (Arena.finish_altersOnly _ task.context.id outcome.lastState)
  have hasFinished : (Stage.finished outcome).Allows ((machine.alterArena task.context.arena fun records =>
      records.finish task.context.id outcome.lastState).stateIn? task.context.arena
        task.context.id) := by
    rw [Machine.stateIn?_alterArena_self]
    exact Arena.state?_finish isActive
  exact ⟨quiet.proceeds, _, ⟨books, agree.move holding quiet hasFinished rfl⟩, rfl⟩

theorem Settling.HandedIn.proceeds {before : Machine} {outcome : WorkerOutcome}
    {result : RegisterFile}
    (handedIn : HandedIn machine (before.contribute task.response task.context.id outcome result).2
      task outcome result)
    (isNew : task.context.id ∉ (machine.response task.response).contributors)
    (opened : task.response < machine.responses.size)
    (sameResponses : before.responses = machine.responses)
    (history : machine.history <:+ before.history) :
    Proceeds machine (before.contribute task.response task.context.id outcome result).2 := by
  have sameResponse : ∀ response, before.response response = machine.response response := by
    intro response
    unfold Machine.response
    rw [sameResponses]
  constructor
  · exact history
  · rw [Machine.size_responses_contribute, sameResponses]
  · intro response isOpened
    rw [Machine.response_contribute]
    by_cases same : response = task.response
    · subst same
      right
      refine ⟨task, outcome, result, rfl, handedIn, isNew, ?_⟩
      rw [sameResponses, if_pos ⟨rfl, opened⟩, sameResponse]
    · left
      rw [if_neg fun both => same both.1, sameResponse]

/-- The contribution of a task whose body has ended is handed in. -/
theorem endTask_settles {context : Context} (left : task.context.LeftAs context)
    (outcome : Except Interruption WorkerExit) {upset : Interruption → Settling.Hand → Prop} :
    (Effect.atomically (Machine.endTask task outcome context)).Follows .settling thread
      (.task task (.finished (judge context outcome)) :: rest)
      (fun answer last => (∃ completes, answer = .ok completes) ∧
        last = .context task.context.place false :: rest) upset := by
  apply Effect.follows_atomically
  intro machine hands fits holding
  obtain ⟨books, agree⟩ := fits
  obtain ⟨opened, _, _, hasFinished, hasStarted⟩ := agree.ofTask holding
  have started : .started task ∈ machine.history := hasStarted.mp rfl
  have noted : Agree (machine.record (.ended task outcome context)) books hands :=
    agree.note nofun
  have delivered : Delivered (machine.record (.ended task outcome context)).history task
      ⟨task.context.id, judge context outcome, context.results⟩ :=
    .inl ⟨outcome, context, List.mem_cons_self, List.mem_cons_of_mem _ started, rfl, rfl⟩
  obtain ⟨accepted, isNew, account, contributed⟩ :=
    noted.contribute holding left.sized delivered
  have handedIn : HandedIn machine ((machine.record (.ended task outcome context)).contribute
      task.response task.context.id (judge context outcome) context.results).2 task
        (judge context outcome) context.results :=
    .inl ⟨outcome, context, rfl, started, rfl, rfl, hasFinished⟩
  unfold Machine.endTask
  rw [left.id]
  refine ⟨handedIn.proceeds isNew opened rfl (List.suffix_cons _ _), _, ⟨_, contributed⟩, accepted,
    rfl⟩

theorem dispose_settles :
    task.dispose.Follows .settling thread (.task task .ready :: rest)
      fun _ last => last = rest := by
  have contributed : (Process.modify fun machine => (Machine.contribute task.response
        task.context.id (.faulted task.droppedFault) task.context.results machine).2).Follows
      .settling thread (.task task .ready :: rest)
        fun _ last => last = .context task.context.place false :: rest := by
    apply Process.follows_modify
    intro machine hands fits holding
    obtain ⟨books, agree⟩ := fits
    obtain ⟨opened, isMade, _, _, hasStarted⟩ := agree.ofTask holding
    have notStarted : .started task ∉ machine.history := by
      intro started
      cases hasStarted.mpr started
    have neverStarted : ∀ own : Task, own.response = task.response →
        own.context.id = task.context.id → .started own ∉ machine.history := by
      intro own sameResponse sameId started
      obtain ⟨_, ownMade⟩ := agree.started own started
      rw [sameResponse] at ownMade
      rw [(agree.kept task.response opened).eq_of_id ownMade isMade sameId] at started
      exact notStarted started
    have delivered : Delivered machine.history task
        ⟨task.context.id, .faulted task.droppedFault, task.context.results⟩ :=
      .inr ⟨rfl, notStarted⟩
    obtain ⟨_, isNew, account, contributed⟩ := agree.contribute holding rfl delivered
    have handedIn : HandedIn machine (machine.contribute task.response task.context.id
        (.faulted task.droppedFault) task.context.results).2 task (.faulted task.droppedFault)
          task.context.results :=
      .inr ⟨rfl, neverStarted, rfl⟩
    exact ⟨handedIn.proceeds isNew opened rfl (List.suffix_refl _), _, ⟨_, contributed⟩, rfl⟩
  apply Process.Follows.bind contributed
  intro _ _ isHand
  rw [isHand]
  exact task.context.release_settles

/-- A task is run, and nothing is left of it in hand. -/
theorem Station.carryOut_settles (tasks : station.SettlesTasks) (sound : station.program.Sound)
    {interpreter : Interpreter} (settles : interpreter.Settles) (task : Task)
    (rest : Settling.Hand) :
    (station.carryOut interpreter task).Follows .settling station.thread
      (.task task .ready :: rest) (fun _ last => last = rest) fun _ _ => False := by
  unfold carryOut
  refine Effect.Follows.followedBy (?_ : Effect.Follows _ _ _ _
    (fun _ last => last = .context task.context.place false :: rest) fun _ _ => False) ?_
  · apply Effect.Follows.bind startTask_settles
    rintro _ _ ⟨rfl, rfl⟩
    have ran := settles station tasks sound task.context (.task task .begun :: rest)
    apply Effect.Follows.bind (Effect.follows_work ran)
    rintro ⟨outcome, context⟩ _ ⟨rfl, left⟩
    apply Effect.Follows.bind (finish_settles left (judge context outcome))
    rintro _ _ rfl
    apply Effect.Follows.bind (endTask_settles left outcome)
    rintro _ _ ⟨⟨completes, rfl⟩, rfl⟩
    exact rfl
  · intro outcome hand reached
    cases outcome with
    | error interruption => exact reached.elim
    | ok state =>
      rw [show hand = .context task.context.place false :: rest from reached]
      exact task.context.release_settles

end WorkerMachine
