import WorkerMachine.Proofs.Clearance.Calls
import WorkerMachine.Proofs.Settling.Tasks
/-!
# Scheduling and the books

A task that is handed to the scheduler is run, or waits on the pile for somebody who takes it up, or is
dropped.  Only a pool that is refused a thread keeps a task back, and then the call is interrupted.
-/

namespace WorkerMachine

open Settling

/-- How the scheduler refuses a task with a context of this name, if it does. -/
def Policy.refusal? (context : ContextId) (policy : Policy) : Option Interruption :=
  match policy with
  | .rehearsed order => if order = .reject then some (.fault (.schedule "rejected")) else none
  | .ownThreads _ _ spawnFailure =>
    match policy.threadRefusal? context, spawnFailure with
    | some refusal, _ => some (.panic refusal)
    | none, some reason => some (.fault (.schedule ("failed to spawn worker thread: " ++ reason)))
    | none, none => none
  | .threadPool _ _ _ => (policy.threadRefusal? context).map .panic

/-- The number that is added to the name of a thread makes no difference to whether it is refused. -/
theorem ThreadName.refusal?_numbered (name : String) (number : Nat) :
    refusal? (name ++ "-" ++ toString number) = none ↔ zeroCharacter ∉ name.toList := by
  have dashed : zeroCharacter ∉ "-".toList := by decide
  have numbered : zeroCharacter ∉ (toString number).toList := by
    intro member
    rw [Nat.toString_eq_repr, Nat.toList_repr] at member
    have isDigit := Nat.isDigit_of_mem_toDigits (by decide) (by decide) member
    exact absurd isDigit (by decide)
  rw [refusal?_eq_none_iff, String.toList_append, String.toList_append, List.mem_append,
    List.mem_append]
  exact not_congr ((or_iff_left numbered).trans (or_iff_left dashed))

namespace Policy

variable {policy : Policy} {first : ContextId} {interruption : Interruption}

/-- Whether a task is refused is the same for all tasks. -/
theorem refusal?_eq_none (accepted : policy.refusal? first = none) (second : ContextId) :
    policy.refusal? second = none := by
  cases policy with
  | rehearsed order => exact accepted
  | threadPool multiThreaded threadName size => exact accepted
  | ownThreads threadName stackSize spawnFailure =>
    unfold refusal? threadRefusal? at accepted ⊢
    dsimp only at accepted ⊢
    cases named : ThreadName.refusal? (threadName ++ "-" ++ toString first) with
    | some refusal =>
      rw [named] at accepted
      cases accepted
    | none =>
      rw [named] at accepted
      rw [ThreadName.refusal?_numbered] at named
      rw [(ThreadName.refusal?_numbered threadName second).mpr named]
      exact accepted

/-- A task is refused by a panic over the name of its thread, or by a fault that is the same for all
tasks. -/
theorem refusal?_cases (refused : policy.refusal? first = some interruption) :
    (∃ payload, policy.threadRefusal? first = some payload ∧ interruption = .panic payload) ∨
      ∃ fault, interruption = .fault fault ∧ ∀ second, policy.refusal? second = some (.fault fault) := by
  cases policy with
  | rehearsed order =>
    right
    unfold refusal? at refused ⊢
    dsimp only at refused ⊢
    split at refused
    · next rejects =>
      cases refused
      refine ⟨_, rfl, fun _ => if_pos rejects⟩
    · cases refused
  | threadPool multiThreaded threadName size =>
    left
    obtain ⟨payload, isPayload, rfl⟩ := Option.map_eq_some_iff.mp refused
    exact ⟨payload, isPayload, rfl⟩
  | ownThreads threadName stackSize spawnFailure =>
    unfold refusal? at refused
    dsimp only at refused
    split at refused
    · next refusal isRefusal =>
      cases refused
      exact .inl ⟨refusal, isRefusal, rfl⟩
    · next reason named =>
      cases refused
      refine .inr ⟨_, rfl, fun second => ?_⟩
      unfold threadRefusal? at named
      rw [ThreadName.refusal?_numbered] at named
      unfold refusal? threadRefusal?
      dsimp only
      rw [(ThreadName.refusal?_numbered threadName second).mpr named]
    · cases refused

end Policy

variable {thread : ThreadId} {token rest : Settling.Hand} {task : Task} {docket : Docket}
  {response : ResponseId} {station : Station} {upset : Interruption → Settling.Hand → Prop}
  {machine later : Machine}

/-! ## The pile -/

/-- Nothing happens but with the pile. -/
structure Settling.Piles (machine later : Machine) : Prop where
  responses : later.responses = machine.responses
  history : later.history = machine.history
  arenas : later.arenas = machine.arenas

namespace Settling.Piles

variable (piles : Piles machine later)

include piles

theorem proceeds : Proceeds machine later where
  history := piles.history ▸ List.suffix_refl _
  opened := Nat.le_of_eq (congrArg Array.size piles.responses).symm
  responses := by
    intro response _
    left
    unfold Machine.response
    rw [piles.responses]

theorem arena_eq (key : ArenaKey) : later.arena key = machine.arena key := by
  unfold Machine.arena
  rw [piles.arenas]

/-- A thread lays the task in front of its hand on the pile. -/
theorem offer {books : Books} {hands : ThreadId → Hand} (agree : Agree machine books hands)
    (holding : hands thread = .task task .ready :: rest)
    (tasks : later.waitingTasks.Perm (task :: machine.waitingTasks)) :
    Agree later books (Function.update hands thread rest) := by
  apply agree.shift piles.responses piles.history piles.arena_eq
  rw [holding]
  have onPile : (pile later).Perm (.task task .ready :: pile machine) := tasks.map _
  exact (onPile.append_left rest).trans List.perm_middle

theorem take {books : Books} {hands : ThreadId → Hand} (agree : Agree machine books hands)
    (tasks : machine.waitingTasks.Perm (task :: later.waitingTasks)) :
    Agree later books (Function.update hands thread (.task task .ready :: hands thread)) := by
  apply agree.shift piles.responses piles.history piles.arena_eq
  have onPile : (pile machine).Perm (.task task .ready :: pile later) := tasks.map _
  exact List.perm_middle.symm.trans (onPile.symm.append_left (hands thread))

end Settling.Piles

theorem offer_settles {update : Machine → Machine}
    (piles : ∀ machine, Piles machine (update machine))
    (offers : ∀ machine, (update machine).waitingTasks.Perm (task :: machine.waitingTasks)) :
    (Effect.modify update).Follows .settling thread (.task task .ready :: rest)
      (fun _ last => last = rest) upset := by
  apply Effect.follows_modify
  intro machine hands fits holding
  obtain ⟨books, agree⟩ := fits
  exact ⟨(piles machine).proceeds, rest, ⟨books, (piles machine).offer agree holding (offers machine)⟩,
    rfl⟩

theorem Settling.piles_dequeue (newest : Bool) (machine : Machine) :
    Piles machine (machine.dequeue newest).2 := by
  unfold Machine.dequeue
  cases newest with
  | true => exact ⟨rfl, rfl, rfl⟩
  | false => exact ⟨rfl, rfl, rfl⟩

/-- A thread takes a task off the queue, if there is one. -/
theorem dequeue_settles (newest : Bool) :
    (Effect.atomically (Machine.dequeue newest)).Follows .settling thread token
      (fun answer last => (answer = none ∧ last = token) ∨
        ∃ task, answer = some task ∧ last = .task task .ready :: token) upset := by
  apply Effect.follows_atomically
  intro machine hands fits holding
  obtain ⟨books, agree⟩ := fits
  have piles := piles_dequeue newest machine
  apply And.intro piles.proceeds
  obtain ⟨isNone, sameTasks⟩ | ⟨task, isSome, tasks⟩ := machine.waitingTasks_dequeue newest
  · refine ⟨token, ⟨books, ?_⟩, .inl ⟨isNone, rfl⟩⟩
    rw [← holding, Function.update_eq_self]
    exact agree.calm (quiet_of_same piles.responses piles.history sameTasks piles.arenas)
  · refine ⟨_, ⟨books, ?_⟩, .inr ⟨task, isSome, rfl⟩⟩
    rw [← holding]
    exact piles.take agree tasks

/-! ## The scheduler -/

namespace Station

/-- A thread goes on with what it has in hand once it has dropped a task. -/
theorem dropTask_settles :
    (liftM task.dispose : Effect Unit).Follows .settling thread (.task task .ready :: rest)
      (fun _ last => last = rest) upset :=
  Effect.follows_work dispose_settles

theorem runScheduled_settles (tasks : station.SettlesTasks) (task : Task) :
    (station.runScheduled task).Follows .settling station.thread (.task task .ready :: rest)
      (fun _ last => last = rest) upset := by
  apply Effect.Follows.bind (tasks task rest).of_never
  rintro state _ rfl
  exact Effect.calm_modify_follows fun _ => quiet_of_same rfl rfl rfl rfl

/-- A pool that is refused a thread keeps a task for good. -/
theorem loseTask_settles {update : Machine → Machine} (isOfCall : task.response = response)
    (unfinished : ¬docket.Whole) (quiet : ∀ machine, Quiet none machine (update machine)) :
    (Effect.modify update).Follows .settling thread
      (.task task .ready :: .call response docket none :: rest)
      (fun _ last => last = .call response docket.lose none :: rest) upset := by
  subst isOfCall
  apply Effect.follows_modify
  intro machine hands fits holding
  obtain ⟨books, agree⟩ := fits
  exact ⟨(quiet machine).proceeds, _, ⟨_, agree.lose holding unfinished (quiet machine)⟩, rfl⟩

/-- A task that is handed to the scheduler is out of hand, also if the scheduler refuses it. -/
theorem schedule_settles (tasks : station.SettlesTasks) (isOfCall : task.response = response)
    (unfinished : ¬docket.Whole) :
    (station.schedule task).Follows .settling station.thread
      (.task task .ready :: .call response docket none :: rest)
      (fun _ last => station.policy.refusal? task.context.id = none ∧
        last = .call response docket none :: rest)
      (fun interruption last =>
        station.policy.refusal? task.context.id = some interruption ∧
          ∃ lost, last = .call response { docket with lost := lost } none :: rest) := by
  have accepted : ∀ {effect : Effect Unit}, station.policy.refusal? task.context.id = none →
      effect.Follows .settling station.thread
        (.task task .ready :: .call response docket none :: rest)
        (fun _ last => last = .call response docket none :: rest) (fun _ _ => False) →
      effect.Follows .settling station.thread
        (.task task .ready :: .call response docket none :: rest)
        (fun _ last => station.policy.refusal? task.context.id = none ∧
          last = .call response docket none :: rest)
        (fun interruption last =>
          station.policy.refusal? task.context.id = some interruption ∧
            ∃ lost, last = .call response { docket with lost := lost } none :: rest) := by
    intro effect accepts follows
    exact follows.weaken (fun _ _ isLast => ⟨accepts, isLast⟩) fun _ _ never => never.elim
  unfold schedule
  split
  · next order isPolicy =>
    refine Effect.Follows.bind
      (Effect.calm_modify_follows fun _ => quiet_of_same rfl rfl rfl rfl) ?_
    rintro _ _ rfl
    cases order with
    | inline =>
      apply accepted (by simp [Policy.refusal?, isPolicy])
      exact runScheduled_settles tasks task
    | fifo =>
      apply accepted (by simp [Policy.refusal?, isPolicy])
      exact offer_settles (fun _ => ⟨rfl, rfl, rfl⟩) fun machine => machine.waitingTasks_enqueue task
    | lifo =>
      apply accepted (by simp [Policy.refusal?, isPolicy])
      exact offer_settles (fun _ => ⟨rfl, rfl, rfl⟩) fun machine => machine.waitingTasks_enqueue task
    | drop =>
      apply accepted (by simp [Policy.refusal?, isPolicy])
      exact dropTask_settles
    | reject =>
      apply Effect.Follows.bind dropTask_settles
      rintro _ _ rfl
      exact Effect.follows_fail ⟨by simp [Policy.refusal?, isPolicy], docket.lost, rfl⟩
  · next threadName stackSize spawnFailure isPolicy =>
    split
    · next refusal isRefused =>
      refine Effect.Follows.bind
        (Effect.calm_modify_follows fun _ => quiet_of_same rfl rfl rfl rfl) ?_
      rintro _ _ rfl
      apply Effect.Follows.bind dropTask_settles
      rintro _ _ rfl
      rw [isPolicy] at isRefused
      exact Effect.follows_throw ⟨by simp [Policy.refusal?, isPolicy, isRefused], docket.lost, rfl⟩
    · next reason isAccepted =>
      apply Effect.Follows.bind dropTask_settles
      rintro _ _ rfl
      rw [isPolicy] at isAccepted
      exact Effect.follows_fail ⟨by simp [Policy.refusal?, isPolicy, isAccepted], docket.lost, rfl⟩
    · next isAccepted =>
      rw [isPolicy] at isAccepted
      apply accepted (by simp [Policy.refusal?, isPolicy, isAccepted])
      exact offer_settles (fun _ => ⟨rfl, rfl, rfl⟩) fun machine => machine.waitingTasks_spawn task
  · next multiThreaded threadName size isPolicy =>
    split
    · next refusal isRefused =>
      refine Effect.Follows.bind
        (loseTask_settles isOfCall unfinished fun _ => quiet_of_same rfl rfl rfl rfl) ?_
      rintro _ _ rfl
      rw [isPolicy] at isRefused
      exact Effect.follows_throw ⟨by simp [Policy.refusal?, isPolicy, isRefused], true, rfl⟩
    · next isAccepted =>
      rw [isPolicy] at isAccepted
      apply accepted (by simp [Policy.refusal?, isPolicy, isAccepted])
      exact offer_settles (fun _ => ⟨rfl, rfl, rfl⟩) fun machine => machine.waitingTasks_spawn task

/-! ## Waiting -/

variable (tasks : station.SettlesTasks)

include tasks

/-- The queue is run whatever the thread has in hand. -/
theorem drain_settles (newest : Bool) (bound : Nat) :
    (station.drain newest bound).Follows .settling station.thread token
      (fun _ last => last = token) upset := by
  induction bound with
  | zero =>
    apply Effect.follows_waitUntil fun _ _ _ _ _ => trivial
    intro machine hands fits holding _
    refine ⟨token, ?_, rfl⟩
    rw [← holding, Function.update_eq_self]
    exact fits
  | succ bound inductionHypothesis =>
    unfold drain
    apply Effect.Follows.bind (dequeue_settles newest)
    rintro _ _ (⟨rfl, rfl⟩ | ⟨task, rfl, rfl⟩)
    · rfl
    · apply Effect.Follows.bind (runScheduled_settles tasks task)
      rintro _ _ rfl
      exact inductionHypothesis

theorem drainQueue_settles :
    station.drainQueue.Follows .settling station.thread token (fun _ last => last = token)
      upset := by
  unfold drainQueue
  split
  · exact drain_settles tasks _ _
  · rfl
  · rfl

omit tasks in
/-- The account of a call is closed when nothing is outstanding any more. -/
theorem waitUntil_settles :
    (Effect.waitUntil fun machine => (machine.response response).outstanding = 0).Follows .settling
      thread (.call response docket none :: rest)
      (fun _ last => ∃ account, last = .call response docket (some account) :: rest) upset := by
  apply Effect.follows_waitUntil fun _ _ _ _ _ => trivial
  intro machine hands fits holding nothing
  obtain ⟨books, agree⟩ := fits
  exact ⟨_, ⟨books, agree.close holding (of_decide_eq_true nothing)⟩, _, rfl⟩

theorem park_settles :
    (station.park response).Follows .settling station.thread (.call response docket none :: rest)
      (fun _ last => ∃ account, last = .call response docket (some account) :: rest) upset := by
  unfold park
  split
  · have looked : (Effect.read fun machine => (machine.response response).outstanding).Follows
        .settling station.thread (.call response docket none :: rest)
        (fun _ last => last = .call response docket none :: rest) upset :=
      Effect.follows_read fun _ _ _ _ => rfl
    apply Effect.Follows.bind looked
    rintro outstanding _ rfl
    refine Effect.Follows.bind
      (Effect.calm_modify_follows fun _ => quiet_of_same rfl rfl rfl rfl) ?_
    rintro _ _ rfl
    apply Effect.Follows.bind (drainQueue_settles tasks)
    rintro _ _ rfl
    exact waitUntil_settles
  · exact waitUntil_settles
  · exact waitUntil_settles

end Station

end WorkerMachine
