import WorkerMachine.Proofs.Clearance.Tasks
import WorkerMachine.Proofs.Response.Aggregation
import WorkerMachine.Proofs.Settling.Holdings
/-!
# Books about tasks

Books are kept about every call: which tasks have been made for it, and which of them have
contributed.  A task that has not contributed is in somebody's hands, or waits on the pile of the
scheduler, and it is there once; so it contributes once, and nobody else contributes in its place.
-/

namespace WorkerMachine

/-- The worker of a task, and whether the task is one for the path of the caller. -/
def Task.part (task : Task) : Worker × Bool :=
  (task.worker, task.context.inCaller)

namespace Settling

/-- How far a task has come. -/
inductive Stage where
  | created
  | ready
  /-- The context runs, and the start has not been noted yet. -/
  | entered
  | begun
  /-- The body has ended, and the context has been moved to its last state. -/
  | finished (outcome : WorkerOutcome)

/-- A call, and the tasks that have been made for it so far. -/
structure Docket where
  unit : Callable
  parent : Context
  source : RegisterFile
  arguments : List Nat
  waits : Bool
  made : List Task
  /-- A task was kept back for good, because no thread could be started for it. -/
  lost : Bool

/-- What a thread has in hand. -/
inductive Item where
  /-- A context without a task that has to contribute, and whether it is known to be active. -/
  | context (place : ArenaKey × ContextId) (active : Bool)
  | task (task : Task) (stage : Stage)
  /-- A call that the thread makes, and its account once it is complete. -/
  | call (response : ResponseId) (docket : Docket) (closed : Option Account)
  /-- A copy of the books about a call for which all tasks have been made.  There may be several, so
  each has a number. -/
  | copy (number : Nat) (response : ResponseId) (docket : Docket)

/-- What an item is about. -/
inductive Key where
  | context (place : ArenaKey × ContextId)
  | call (response : ResponseId)
  | copy (number : Nat)
  deriving DecidableEq

def Item.key : Item → Key
  | context place _ => .context place
  | task own _ => .context own.context.place
  | call response _ _ => .call response
  | copy number _ _ => .copy number

/-- What is in the hand of a thread, with the latest item in front. -/
abbrev Hand := List Item

/-- A context runs, or waits for a response.  The two are not kept apart: calls change the one for the
other. -/
def Active (state : Option ContextState) : Prop :=
  state = some .running ∨ state = some .waiting

def Stage.Allows : Stage → Option ContextState → Prop
  | created, state => state = some .created
  | ready, state => state = some .runnable
  | entered, state | begun, state => Active state
  | finished outcome, state => state = some outcome.lastState

def Stage.hasStarted : Stage → Bool
  | created | ready | entered => false
  | begun | finished _ => true

/-- The books about all calls. -/
structure Books where
  docket : ResponseId → Docket
  account : ResponseId → Account

namespace Books

def withDocket (books : Books) (response : ResponseId) (docket : Docket) : Books :=
  { books with docket := Function.update books.docket response docket }

def withAccount (books : Books) (response : ResponseId) (account : Account) : Books :=
  { books with account := Function.update books.account response account }

variable (books : Books) {response other : ResponseId} (docket : Docket) (account : Account)

@[simp] theorem docket_withDocket_self :
    (books.withDocket response docket).docket response = docket :=
  Function.update_self ..

theorem docket_withDocket_of_ne (different : other ≠ response) :
    (books.withDocket response docket).docket other = books.docket other :=
  Function.update_of_ne different ..

@[simp] theorem account_withDocket :
    (books.withDocket response docket).account = books.account := rfl

@[simp] theorem account_withAccount_self :
    (books.withAccount response account).account response = account :=
  Function.update_self ..

theorem account_withAccount_of_ne (different : other ≠ response) :
    (books.withAccount response account).account other = books.account other :=
  Function.update_of_ne different ..

@[simp] theorem docket_withAccount :
    (books.withAccount response account).docket = books.docket := rfl

end Books

namespace Docket

def plan (docket : Docket) : List (Worker × Bool) :=
  docket.unit.scheduledWorkers.map (·, false) ++ [(docket.unit.callerWorker, true)]

structure Makes (docket : Docket) (response : ResponseId) (task : Task) : Prop where
  shape : task = docket.unit.task task.worker docket.parent response task.context.inCaller
    task.context.locals task.context.id
  seeded : Marshalling.seed task.worker.locals docket.unit.params docket.source docket.arguments =
    .ok task.context.locals

/-- All tasks have been made. -/
def Whole (docket : Docket) : Prop :=
  docket.made.map Task.part = docket.plan ∧
    docket.lost = false

def make (docket : Docket) (task : Task) : Docket :=
  { docket with made := docket.made ++ [task] }

/-- The docket of a call of which a task has been kept back. -/
def lose (docket : Docket) : Docket :=
  { docket with lost := true }

theorem Makes.make {docket : Docket} {response : ResponseId} {task : Task}
    (makes : docket.Makes response task) (other : Task) : (docket.make other).Makes response task :=
  ⟨makes.shape, makes.seeded⟩

theorem Makes.lose {docket : Docket} {response : ResponseId} {task : Task}
    (makes : docket.Makes response task) : docket.lose.Makes response task :=
  ⟨makes.shape, makes.seeded⟩

end Docket

/-- How a task came to contribute: its worker had started and its body has ended so, or it was dropped
before that. -/
def Delivered (history : List Happening) (task : Task) (contribution : Contribution) : Prop :=
  (∃ outcome after, .ended task outcome after ∈ history ∧ .started task ∈ history ∧
      contribution.outcome = judge after outcome ∧ contribution.result = after.results) ∨
    contribution.outcome = .faulted task.droppedFault ∧ .started task ∉ history

structure Kept (machine : Machine) (docket : Docket) (account : Account) (response : ResponseId) :
    Prop where
  sound : docket.unit.Sound
  expected : account.expected = docket.unit.workers.length
  told : machine.response response = account.response docket.unit.returns docket.waits
    (if account.accepted.length = docket.unit.workers.length then 1 else 0)
  fits : ∀ contribution ∈ account.accepted, contribution.Fits docket.unit.returns
  planned : docket.made.map Task.part <+: docket.plan
  made : ∀ task ∈ docket.made, docket.Makes response task ∧
    task.context.id < (machine.arena docket.parent.arena).nextId
  distinct : (docket.made.map fun task => task.context.id).Nodup
  delivered : ∀ contribution ∈ account.accepted, ∃ task ∈ docket.made,
    task.context.id = contribution.worker ∧ Delivered machine.history task contribution

/-- An item tells the truth about a machine. -/
def Item.Holds (machine : Machine) (books : Books) : Item → Prop
  | context place active => place.2 < (machine.arena place.1).nextId ∧
      (active = true → Active (machine.stateIn? place.1 place.2))
  | task own stage => own.response < machine.responses.size ∧
      own ∈ (books.docket own.response).made ∧
      own.context.id ∉ (books.account own.response).accepted.map Contribution.worker ∧
      stage.Allows (machine.stateIn? own.context.arena own.context.id) ∧
      (stage.hasStarted = true ↔ .started own ∈ machine.history)
  | call response docket closed => response < machine.responses.size ∧
      books.docket response = docket ∧ ∀ account ∈ closed, books.account response = account ∧
        account.accepted.length = docket.unit.workers.length
  | copy _ response docket => response < machine.responses.size ∧ books.docket response = docket ∧
      docket.Whole

def Item.TellsActive (place : ArenaKey × ContextId) : Item → Prop
  | context own active => own = place ∧ active = true
  | task own stage => own.context.place = place ∧ stage = .begun
  | call _ _ _ | copy _ _ _ => False

def KnowsActive (place : ArenaKey × ContextId) (hand : Hand) : Prop :=
  ∃ item ∈ hand, item.TellsActive place

def pile (machine : Machine) : List Item :=
  machine.waitingTasks.map (.task · .ready)

/-- The books and the hands agree with a machine. -/
structure Agree (machine : Machine) (books : Books) (hands : ThreadId → Hand) : Prop where
  apart : Apart Item.key (pile machine) hands
  held : ∀ thread, ∀ item ∈ hands thread, item.Holds machine books
  piled : ∀ item ∈ pile machine, item.Holds machine books
  kept : ∀ response < machine.responses.size,
    Kept machine (books.docket response) (books.account response) response
  /-- Every task that has not contributed is to be found somewhere. -/
  covered : ∀ response < machine.responses.size, (books.docket response).lost = false →
    ∀ task ∈ (books.docket response).made,
      task.context.id ∉ (books.account response).accepted.map Contribution.worker →
        task ∈ machine.waitingTasks ∨ ∃ thread stage, .task task stage ∈ hands thread
  started : ∀ task, .started task ∈ machine.history →
    task.response < machine.responses.size ∧ task ∈ (books.docket task.response).made

/-- A contribution is handed in: by a worker that had started, once its context has been moved to the
last state that goes with the outcome, or for a task that was dropped instead of being started. -/
def HandedIn (before after : Machine) (task : Task) (outcome : WorkerOutcome)
    (result : RegisterFile) : Prop :=
  (∃ exit left, after.history = .ended task exit left :: before.history ∧
      .started task ∈ before.history ∧ outcome = judge left exit ∧ result = left.results ∧
      before.stateIn? task.context.arena task.context.id = some outcome.lastState) ∨
    outcome = .faulted task.droppedFault ∧
      (∀ own : Task, own.response = task.response → own.context.id = task.context.id →
        .started own ∉ before.history) ∧
      after.history = before.history

/-- As one machine becomes another one, a response stays as it is or takes in the contribution of a
task that has not contributed yet. -/
structure Proceeds (before after : Machine) : Prop where
  history : before.history <:+ after.history
  opened : before.responses.size ≤ after.responses.size
  responses : ∀ response < before.responses.size, after.response response = before.response response ∨
    ∃ task outcome result, task.response = response ∧ HandedIn before after task outcome result ∧
      task.context.id ∉ (before.response response).contributors ∧
      after.response response =
        ((before.response response).contribute task.context.id outcome result).1

theorem Proceeds.refl (machine : Machine) : Proceeds machine machine :=
  ⟨List.suffix_refl _, Nat.le_refl _, fun _ _ => .inl rfl⟩

end Settling

open Settling

/-- The discipline of threads that keep books about tasks. -/
def Discipline.settling : Discipline ThreadId Machine Settling.Hand where
  fits machine hands := ∃ books, Agree machine books hands
  permits := Proceeds
  excuses _ _ _ := True
  permits_refl := Proceeds.refl

namespace Settling

variable {machine later : Machine} {books : Books} {hands : ThreadId → Hand} {thread : ThreadId}
  {task : Task} {docket : Docket} {account : Account} {response : ResponseId}

/-! ## Tasks of a call -/

namespace Docket.Makes

variable (makes : docket.Makes response task)

include makes

theorem response_eq : task.response = response := by
  rw [makes.shape]
  rfl

theorem place_eq : task.context.place = (docket.parent.arena, task.context.id) := by
  rw [makes.shape]
  rfl

theorem results_eq : task.context.results = .ofSizes docket.unit.returns.sizes := by
  rw [makes.shape]
  rfl

end Docket.Makes

theorem Docket.length_plan (docket : Docket) :
    docket.plan.length = docket.unit.workers.length := by
  simp [plan, Callable.workers]

theorem Docket.length_lt_of_incomplete (docket : Docket)
    (planned : docket.made.map Task.part <+: docket.plan)
    (incomplete : docket.made.map Task.part ≠ docket.plan) :
    docket.made.length < docket.unit.workers.length := by
  have bounded : docket.made.length ≤ docket.unit.workers.length := by
    simpa [docket.length_plan] using planned.length_le
  apply Nat.lt_of_le_of_ne bounded
  intro same
  apply incomplete
  apply planned.eq_of_length
  rw [List.length_map, docket.length_plan, same]

theorem Docket.length_lt_of_planned (docket : Docket) {part : Worker × Bool}
    (planned : docket.made.map Task.part ++ [part] <+: docket.plan) :
    docket.made.length < docket.unit.workers.length := by
  have bounded := planned.length_le
  rw [docket.length_plan, List.length_append, List.length_map] at bounded
  exact bounded

theorem Docket.not_whole_of_planned {part : Worker × Bool}
    (planned : docket.made.map Task.part ++ [part] <+: docket.plan) : ¬docket.Whole := by
  rintro ⟨complete, _⟩
  have bounded := planned.length_le
  rw [complete, List.length_append, List.length_singleton] at bounded
  exact Nat.not_succ_le_self _ bounded

namespace Kept

variable (kept : Kept machine docket account response)

include kept

theorem length_made_le : docket.made.length ≤ docket.unit.workers.length := by
  have bounded := kept.planned.length_le
  rwa [List.length_map, docket.length_plan] at bounded

theorem among : account.accepted.map Contribution.worker ⊆
    docket.made.map fun task => task.context.id := by
  intro worker member
  obtain ⟨contribution, isAccepted, rfl⟩ := List.mem_map.mp member
  obtain ⟨task, isMade, same, _⟩ := kept.delivered contribution isAccepted
  rw [← same]
  exact List.mem_map_of_mem isMade

/-- As long as a task has not contributed, its contribution counts. -/
theorem admits (isMade : task ∈ docket.made)
    (pending : task.context.id ∉ account.accepted.map Contribution.worker) :
    account.Admits task.context.id := by
  have fewer : (task.context.id :: account.accepted.map Contribution.worker).length ≤
      (docket.made.map fun task => task.context.id).length := by
    apply List.Subperm.length_le
    apply List.Nodup.subperm (List.nodup_cons.mpr ⟨pending, account.distinct⟩)
    exact List.cons_subset.mpr ⟨List.mem_map_of_mem isMade, kept.among⟩
  have bounded := kept.length_made_le
  simp only [List.length_cons, List.length_map] at fewer
  apply And.intro _ pending
  rw [kept.expected]
  omega

theorem eq_of_id {other : Task} (isMade : task ∈ docket.made) (alsoMade : other ∈ docket.made)
    (same : task.context.id = other.context.id) : task = other :=
  List.inj_on_of_nodup_map kept.distinct isMade alsoMade same

end Kept

end Settling

end WorkerMachine
