import WorkerMachine.Proofs.Balance.Scales
import WorkerMachine.Proofs.Clearance.Hands
import WorkerMachine.Proofs.Invocation.Minding
/-!
# What a thread has to put back

A thread that makes calls has contexts in hand, knows the responses of its calls, has claimed the
packages whose inits it runs, and has tilted the scales.  In the end it has in hand what it had in the
beginning.  All contexts that are in nobody's hand, and do not wait with a task, are as they were when
the run began.
-/

namespace WorkerMachine

def Program.Declares (program : Program) (unit : Callable) : Prop :=
  ∃ name package, program.package name = .ok package ∧
    (package.init = some unit ∨ ∃ function, package.functions.get? function = some unit)

theorem Program.Declares.of_function {program : Program} {name packageName function : String}
    {package : Package} {unit : Callable} (isFound : program.package name = .ok package)
    (isUnit : Program.function package packageName function = .ok unit) :
    program.Declares unit := by
  unfold Program.function at isUnit
  split at isUnit
  · next isFunction =>
    cases isUnit
    exact ⟨name, package, isFound, .inr ⟨function, isFunction⟩⟩
  · cases isUnit

/-- A task has been made for a worker of a program: its context is in the machine's own arena, and has
the registers that the worker asks for. -/
structure Program.Prepares (program : Program) (task : Task) : Prop where
  arena : task.context.arena = Machine.ownArena
  ofUnit : ∃ unit worker, task.context.activity = some (unit, worker) ∧ program.Declares unit ∧
    worker ∈ unit.workers ∧ task.context.locals.sizes = worker.locals ∧
      task.context.results.sizes = unit.returns.sizes

namespace Machine

/-- A response that has been opened collects results of a layout. -/
def Collects (machine : Machine) (id : ResponseId) (returns : Layout) : Prop :=
  ∃ response, machine.responses[id]? = some response ∧ response.returns = returns ∧
    response.staged.sizes = returns.sizes

/-- The response of a task collects results of the task's unit. -/
def Awaits (machine : Machine) (task : Task) : Prop :=
  ∃ unit worker, task.context.activity = some (unit, worker) ∧
    machine.Collects task.response unit.returns

def KeepsCollecting (machine later : Machine) : Prop :=
  ∀ id returns, machine.Collects id returns → later.Collects id returns

variable {machine later : Machine}

theorem keepsCollecting_of_same (same : later.responses = machine.responses) :
    machine.KeepsCollecting later := by
  intro id returns collects
  unfold Collects
  rw [same]
  exact collects

theorem KeepsCollecting.awaits (keeps : machine.KeepsCollecting later) {task : Task}
    (awaits : machine.Awaits task) : later.Awaits task := by
  obtain ⟨unit, worker, ofUnit, collects⟩ := awaits
  exact ⟨unit, worker, ofUnit, keeps _ _ collects⟩

/-- The states of contexts after a change of the machine's own arena. -/
theorem state?_setArena (machine : Machine) (arena : Arena) :
    (machine.setArena ownArena arena).state? = arena.state? := by
  unfold state?
  rw [arena_setArena, if_pos rfl]

theorem nextId_setArena (machine : Machine) (arena : Arena) :
    ((machine.setArena ownArena arena).arena ownArena).nextId = arena.nextId := by
  rw [arena_setArena, if_pos rfl]

end Machine

namespace Balance

/-- What is known of a context in hand: its state, and the task that it was made for, if any. -/
structure Holding where
  state : ContextState
  task? : Option Task := none

/-- What a thread has in hand. -/
structure Hand where
  held : ContextId → Option Holding := fun _ => none
  /-- The responses of the calls under way, and the layouts of their results. -/
  calls : List (ResponseId × Layout) := []
  /-- The packages whose inits are under way. -/
  claims : List String := []
  /-- The share in the tilt of the scales. -/
  share : Tilt := 0

namespace Hand

def hold (hand : Hand) (id : ContextId) (holding : Option Holding) : Hand :=
  { hand with held := Function.update hand.held id holding }

def add (hand : Hand) (change : Tilt) : Hand :=
  { hand with share := hand.share + change }

def claim (hand : Hand) (claims : List String) : Hand :=
  { hand with claims := claims }

def know (hand : Hand) (call : ResponseId × Layout) : Hand :=
  { hand with calls := call :: hand.calls }

variable (hand : Hand) (id : ContextId) (holding other : Option Holding) (change more : Tilt)

@[simp] theorem held_hold_self : (hand.hold id holding).held id = holding :=
  Function.update_self ..

theorem held_hold_of_ne {asked : ContextId} (different : asked ≠ id) :
    (hand.hold id holding).held asked = hand.held asked :=
  Function.update_of_ne different ..

@[simp] theorem calls_hold : (hand.hold id holding).calls = hand.calls := rfl
@[simp] theorem claims_hold : (hand.hold id holding).claims = hand.claims := rfl
@[simp] theorem share_hold : (hand.hold id holding).share = hand.share := rfl
@[simp] theorem held_add : (hand.add change).held = hand.held := rfl
@[simp] theorem calls_add : (hand.add change).calls = hand.calls := rfl
@[simp] theorem claims_add : (hand.add change).claims = hand.claims := rfl

@[simp] theorem hold_hold : (hand.hold id holding).hold id other = hand.hold id other := by
  simp [hold]

@[simp] theorem add_add : (hand.add change).add more = hand.add (change + more) := by
  simp [add, add_assoc]

@[simp] theorem add_zero : hand.add 0 = hand := by
  simp [add]

theorem claim_add {claims : List String} :
    (hand.claim claims).add change = (hand.add change).claim claims :=
  rfl

theorem add_hold : (hand.add change).hold id holding = (hand.hold id holding).add change := rfl

theorem hold_eq_self {hand : Hand} {id : ContextId} {holding : Option Holding}
    (same : hand.held id = holding) : hand.hold id holding = hand := by
  simp [hold, ← same]

theorem hold_comm {first second : ContextId} (different : first ≠ second) :
    (hand.hold first holding).hold second other = (hand.hold second other).hold first holding := by
  simp [hold, Function.update_comm different]

theorem hold_back {hand : Hand} {first second : ContextId} {before after : Option Holding}
    (isFirst : hand.held first = before) (isSecond : hand.held second = after) (between : Option Holding)
    (meanwhile : Option Holding) :
    (((hand.hold first between).hold second meanwhile).hold second after).hold first before = hand := by
  by_cases same : first = second
  · subst same
    rw [hold_hold, hold_hold, hold_hold]
    exact hold_eq_self isFirst
  · rw [hold_hold, hold_comm _ _ _ same, hold_hold, hold_eq_self isSecond, hold_eq_self isFirst]

/-- What is free beside something in hand is free anyway. -/
theorem held_eq_none_of_hold {hand : Hand} {id asked : ContextId} {holding : Holding}
    (isFree : (hand.hold id (some holding)).held asked = none) : hand.held asked = none := by
  by_cases same : asked = id
  · subst same
    rw [held_hold_self] at isFree
    cases isFree
  · rwa [held_hold_of_ne _ _ _ same] at isFree

end Hand

/-- Where a context is. -/
inductive Place where
  /-- Nobody has to do with it, and it is as it was when the run began. -/
  | elsewhere
  | held (thread : ThreadId) (holding : Holding)
  /-- It waits with its task for a thread. -/
  | waiting (task : Task)

namespace Place

/-- The state of a context that had another one when the run began. -/
def state? (begun : Option ContextState) : Place → Option ContextState
  | elsewhere => begun
  | held _ holding => some holding.state
  | waiting _ => some .runnable

def task? : Place → Option Task
  | elsewhere => none
  | held _ holding => holding.task?
  | waiting task => some task

/-- The place of a context that a thread holds, or gives back. -/
def ofHolding (thread : ThreadId) : Option Holding → Place
  | none => elsewhere
  | some holding => held thread holding

end Place

/-- The contexts of a machine are at places, since the machine was like `base`. -/
structure Placed (program : Program) (base machine : Machine)
    (hands : ThreadId → ContextId → Option Holding) (places : ContextId → Place) : Prop where
  states : ∀ id, machine.state? id = (places id).state? (base.state? id)
  held : ∀ thread id holding, hands thread id = some holding ↔ places id = .held thread holding
  waiting : ∀ id task, places id = .waiting task ↔
    task ∈ machine.waitingTasks ∧ task.context.id = id
  once : (machine.waitingTasks.map fun task => task.context.id).Nodup
  /-- A task is known by its context, which has come in the course of the run. -/
  tasks : ∀ id task, (places id).task? = some task → task.context.id = id ∧
    base.state? id = none ∧ program.Prepares task ∧ machine.Awaits task
  bounded : ∀ id, (machine.arena Machine.ownArena).nextId ≤ id → machine.state? id = none

namespace Placed

variable {program : Program} {base machine later : Machine}
  {hands : ThreadId → ContextId → Option Holding} {places : ContextId → Place} {thread : ThreadId}
  {id : ContextId} {holding : Holding} {task : Task}

theorem state?_of_held (placed : Placed program base machine hands places)
    (isHeld : hands thread id = some holding) : machine.state? id = some holding.state := by
  rw [placed.states, (placed.held thread id holding).mp isHeld]
  rfl

theorem task_of_held (placed : Placed program base machine hands places)
    (isHeld : hands thread id = some holding) (isTask : holding.task? = some task) :
    task.context.id = id ∧ base.state? id = none ∧ program.Prepares task ∧ machine.Awaits task := by
  refine placed.tasks id task ?_
  rw [(placed.held thread id holding).mp isHeld]
  exact isTask

/-- A context that does not exist is nowhere, and did not exist when the run began. -/
theorem elsewhere_of_none (placed : Placed program base machine hands places)
    (absent : machine.state? id = none) : places id = .elsewhere ∧ base.state? id = none := by
  have isState := placed.states id
  rw [absent] at isState
  cases isPlace : places id with
  | elsewhere =>
    rw [isPlace] at isState
    exact ⟨rfl, isState.symm⟩
  | held owner its =>
    rw [isPlace] at isState
    cases isState
  | waiting task =>
    rw [isPlace] at isState
    cases isState

/-- What leaves the states of contexts and the waiting tasks alone. -/
theorem of_same (placed : Placed program base machine hands places)
    (states : later.state? = machine.state?)
    (waiting : later.waitingTasks = machine.waitingTasks)
    (bounded : (machine.arena Machine.ownArena).nextId ≤ (later.arena Machine.ownArena).nextId)
    (keeps : machine.KeepsCollecting later) : Placed program base later hands places where
  states := states ▸ placed.states
  held := placed.held
  waiting := waiting ▸ placed.waiting
  once := waiting ▸ placed.once
  tasks := by
    intro id task isTask
    obtain ⟨isId, isNew, prepares, awaits⟩ := placed.tasks id task isTask
    exact ⟨isId, isNew, prepares, keeps.awaits awaits⟩
  bounded := by
    intro id isBeyond
    rw [states]
    exact placed.bounded id (Nat.le_trans bounded isBeyond)

theorem turn (placed : Placed program base machine hands places) (later : Machine) (place : Place)
    (after : Option Holding) (alone : ∀ owner its, places id = .held owner its → owner = thread)
    (isPlace : ∀ owner its, place = .held owner its ↔ owner = thread ∧ after = some its)
    (states : later.state? = Function.update machine.state? id (place.state? (base.state? id)))
    (waiting : ∀ task, task ∈ later.waitingTasks ↔
      task.context.id = id ∧ place = .waiting task ∨
        task.context.id ≠ id ∧ task ∈ machine.waitingTasks)
    (once : (later.waitingTasks.map fun task => task.context.id).Nodup)
    (tasks : ∀ task, place.task? = some task → task.context.id = id ∧ base.state? id = none ∧
      program.Prepares task ∧ later.Awaits task)
    (keeps : machine.KeepsCollecting later)
    (bounded : ∀ other, (later.arena Machine.ownArena).nextId ≤ other →
      later.state? other = none) :
    Placed program base later
      (Function.update hands thread (Function.update (hands thread) id after))
      (Function.update places id place) := by
  refine ⟨fun asked => ?_, fun owner asked its => ?_, fun asked task => ?_, once, ?_, bounded⟩
  · rw [states]
    by_cases same : asked = id
    · subst same
      rw [Function.update_self, Function.update_self]
    · rw [Function.update_of_ne same, Function.update_of_ne same]
      exact placed.states asked
  · by_cases same : asked = id
    · subst same
      rw [Function.update_self, isPlace]
      by_cases isThread : owner = thread
      · subst isThread
        simp
      · rw [Function.update_of_ne isThread]
        refine ⟨fun isHeld => ?_, fun both => absurd both.1 isThread⟩
        exact absurd (alone owner its ((placed.held owner asked its).mp isHeld)) isThread
    · rw [Function.update_of_ne same, ← placed.held]
      by_cases isThread : owner = thread
      · subst isThread
        rw [Function.update_self, Function.update_of_ne same]
      · rw [Function.update_of_ne isThread]
  · rw [waiting]
    by_cases same : asked = id
    · subst same
      rw [Function.update_self]
      refine ⟨fun isWaiting => ?_, ?_⟩
      · have isId := (tasks task (by rw [isWaiting]; rfl)).1
        exact ⟨.inl ⟨isId, isWaiting⟩, isId⟩
      · rintro ⟨⟨_, isWaiting⟩ | ⟨different, _⟩, isId⟩
        · exact isWaiting
        · exact absurd isId different
    · rw [Function.update_of_ne same, placed.waiting]
      refine ⟨fun ⟨member, isId⟩ => ⟨.inr ⟨isId ▸ same, member⟩, isId⟩, ?_⟩
      rintro ⟨⟨isId, _⟩ | ⟨_, member⟩, isAsked⟩
      · exact absurd (isAsked.symm.trans isId) same
      · exact ⟨member, isAsked⟩
  · intro asked task isTask
    by_cases same : asked = id
    · subst same
      rw [Function.update_self] at isTask
      exact tasks task isTask
    · rw [Function.update_of_ne same] at isTask
      obtain ⟨isId, isNew, prepares, awaits⟩ := placed.tasks asked task isTask
      exact ⟨isId, isNew, prepares, keeps.awaits awaits⟩

theorem turn_held (placed : Placed program base machine hands places) {after : Option Holding}
    {arena : Arena} (mine : hands thread id ≠ none ∨ machine.state? id = none)
    (states : arena.state? = Function.update (machine.arena Machine.ownArena).state? id
      ((Place.ofHolding thread after).state? (base.state? id)))
    (tasks : ∀ holding task, after = some holding → holding.task? = some task →
      task.context.id = id ∧ base.state? id = none ∧ program.Prepares task ∧ machine.Awaits task)
    (bounded : ∀ other, arena.nextId ≤ other → arena.state? other = none) :
    ∃ places, Placed program base (machine.setArena Machine.ownArena arena)
      (Function.update hands thread (Function.update (hands thread) id after)) places := by
  have isMine : ∀ place, places id = place → (∀ owner its, place = .held owner its →
      owner = thread) ∧ ∀ task, place ≠ .waiting task := by
    rintro place rfl
    rcases mine with isHeld | absent
    · obtain ⟨its, isIts⟩ := Option.ne_none_iff_exists'.mp isHeld
      rw [(placed.held thread id its).mp isIts]
      refine ⟨fun owner other same => ?_, fun _ => nofun⟩
      cases same
      rfl
    · rw [(placed.elsewhere_of_none absent).1]
      exact ⟨fun _ _ => nofun, fun _ => nofun⟩
  obtain ⟨alone, notWaiting⟩ := isMine _ rfl
  refine ⟨_, placed.turn (machine.setArena Machine.ownArena arena)
    (Place.ofHolding thread after) after alone ?_ ?_ ?_ ?_ ?_ ?_ ?_⟩
  · intro owner its
    cases after with
    | none => simp [Place.ofHolding]
    | some holding =>
      simp only [Place.ofHolding, Place.held.injEq, Option.some.injEq]
      exact ⟨fun ⟨isOwner, isIts⟩ => ⟨isOwner.symm, isIts⟩,
        fun ⟨isOwner, isIts⟩ => ⟨isOwner.symm, isIts⟩⟩
  · rw [Machine.state?_setArena]
    exact states
  · intro task
    have isElsewhere : Place.ofHolding thread after ≠ .waiting task := by
      cases after <;> exact nofun
    refine ⟨fun member => .inr ⟨?_, member⟩, ?_⟩
    · rintro rfl
      exact notWaiting task ((placed.waiting _ task).mpr ⟨member, rfl⟩)
    · rintro (⟨_, isWaiting⟩ | ⟨_, member⟩)
      · exact absurd isWaiting isElsewhere
      · exact member
  · exact placed.once
  · intro task isTask
    cases after with
    | none => cases isTask
    | some holding => exact tasks holding task rfl isTask
  · exact Machine.keepsCollecting_of_same rfl
  · intro other isBeyond
    rw [Machine.nextId_setArena] at isBeyond
    rw [Machine.state?_setArena]
    exact bounded other isBeyond

theorem enter (placed : Placed program base machine hands places) (record : ContextRecord) :
    ∃ places, Placed program base
      (machine.setArena Machine.ownArena ((machine.arena Machine.ownArena).register record).2)
      (Function.update hands thread (Function.update (hands thread)
        (machine.arena Machine.ownArena).nextId (some ⟨record.state, none⟩))) places := by
  have states : ((machine.arena Machine.ownArena).register record).2.state? =
      Function.update (machine.arena Machine.ownArena).state?
        (machine.arena Machine.ownArena).nextId (some record.state) := by
    funext asked
    unfold Arena.state?
    rw [Arena.record?_register]
    by_cases isNew : (machine.arena Machine.ownArena).nextId = asked
    · subst isNew
      simp
    · simp [isNew, Function.update_of_ne (Ne.symm isNew)]
  refine placed.turn_held (.inr (placed.bounded _ (Nat.le_refl _))) states ?_ ?_
  · intro holding task isHolding isTask
    cases isHolding
    cases isTask
  · intro other isBeyond
    have isNext : (machine.arena Machine.ownArena).nextId < other := isBeyond
    rw [states, Function.update_of_ne (Nat.ne_of_gt isNext)]
    exact placed.bounded other (Nat.le_of_lt isNext)

/-- A context in hand comes to another state, and may be known to have been made for a task. -/
theorem alter (placed : Placed program base machine hands places)
    (isHeld : hands thread id = some holding) {arena : Arena} {new : Holding}
    (alters : (machine.arena Machine.ownArena).AltersOnly id arena)
    (isState : arena.state? id = some new.state)
    (tasks : ∀ task, new.task? = some task → holding.task? = some task ∨
      task.context.id = id ∧ base.state? id = none ∧ program.Prepares task ∧
        machine.Awaits task) :
    ∃ places, Placed program base (machine.setArena Machine.ownArena arena)
      (Function.update hands thread (Function.update (hands thread) id (some new))) places := by
  refine placed.turn_held (.inl (by rw [isHeld]; exact nofun)) ?_ ?_ ?_
  · funext asked
    by_cases same : asked = id
    · subst same
      rw [Function.update_self]
      exact isState
    · rw [Function.update_of_ne same]
      exact alters.others asked same
  · intro its task isIts isTask
    cases isIts
    rcases tasks task isTask with wasTask | isNew
    · exact placed.task_of_held isHeld wasTask
    · exact isNew
  · intro other isBeyond
    rw [alters.nextId] at isBeyond
    have absent := placed.bounded other isBeyond
    rw [alters.others other]
    · exact absent
    · rintro rfl
      rw [placed.state?_of_held isHeld] at absent
      cases absent

/-- A context in hand is forgotten that has come in the course of the run. -/
theorem leave (placed : Placed program base machine hands places)
    (isHeld : hands thread id = some holding) (isNew : base.state? id = none) :
    ∃ places, Placed program base
      (machine.setArena Machine.ownArena ((machine.arena Machine.ownArena).release id))
      (Function.update hands thread (Function.update (hands thread) id none)) places := by
  have alters := (machine.arena Machine.ownArena).release_altersOnly id
  have gone : ((machine.arena Machine.ownArena).release id).state? id = none := by
    unfold Arena.state?
    rw [Arena.record?_release, if_pos rfl]
    rfl
  refine placed.turn_held (.inl (by rw [isHeld]; exact nofun)) ?_ (fun _ _ => nofun) ?_
  · funext asked
    by_cases same : asked = id
    · subst same
      rw [Function.update_self, gone]
      exact isNew.symm
    · rw [Function.update_of_ne same]
      exact alters.others asked same
  · intro other isBeyond
    by_cases same : other = id
    · rw [same]
      exact gone
    · rw [alters.others other same]
      exact placed.bounded other isBeyond

theorem offer (placed : Placed program base machine hands places)
    (isHeld : hands thread task.context.id = some ⟨.runnable, some task⟩)
    (states : later.state? = machine.state?)
    (nextId : (later.arena Machine.ownArena).nextId = (machine.arena Machine.ownArena).nextId)
    (responses : later.responses = machine.responses)
    (perm : later.waitingTasks.Perm (task :: machine.waitingTasks)) :
    ∃ places, Placed program base later
      (Function.update hands thread (Function.update (hands thread) task.context.id none))
        places := by
  have isPlace := (placed.held thread _ _).mp isHeld
  have others : ∀ other ∈ machine.waitingTasks, other.context.id ≠ task.context.id := by
    intro other member same
    have isWaiting := (placed.waiting _ other).mpr ⟨member, rfl⟩
    rw [same, isPlace] at isWaiting
    cases isWaiting
  have keeps := Machine.keepsCollecting_of_same responses
  refine ⟨_, placed.turn later (.waiting task) none ?_ ?_ ?_ ?_ ?_ ?_ keeps ?_⟩
  · intro owner its isOwner
    rw [isPlace] at isOwner
    cases isOwner
    rfl
  · exact fun _ _ => ⟨nofun, nofun⟩
  · rw [states, eq_comm, Function.update_eq_self_iff]
    exact (placed.state?_of_held isHeld).symm
  · intro other
    rw [perm.mem_iff, List.mem_cons]
    refine ⟨?_, ?_⟩
    · rintro (rfl | member)
      · exact .inl ⟨rfl, rfl⟩
      · exact .inr ⟨others other member, member⟩
    · rintro (⟨_, isWaiting⟩ | ⟨_, member⟩)
      · cases isWaiting
        exact .inl rfl
      · exact .inr member
  · rw [(perm.map _).nodup_iff, List.map_cons, List.nodup_cons]
    refine ⟨fun member => ?_, placed.once⟩
    obtain ⟨other, isWaiting, same⟩ := List.mem_map.mp member
    exact others other isWaiting same
  · rintro other isTask
    cases isTask
    obtain ⟨isId, isNew, prepares, awaits⟩ := placed.task_of_held isHeld rfl
    exact ⟨isId, isNew, prepares, keeps.awaits awaits⟩
  · intro other isBeyond
    rw [nextId] at isBeyond
    rw [states]
    exact placed.bounded other isBeyond

theorem take (placed : Placed program base machine hands places)
    (states : later.state? = machine.state?)
    (nextId : (later.arena Machine.ownArena).nextId = (machine.arena Machine.ownArena).nextId)
    (responses : later.responses = machine.responses)
    (perm : machine.waitingTasks.Perm (task :: later.waitingTasks)) :
    ∃ places, Placed program base later
      (Function.update hands thread (Function.update (hands thread) task.context.id
        (some ⟨.runnable, some task⟩))) places := by
  have isWaiting : places task.context.id = .waiting task :=
    (placed.waiting _ task).mpr ⟨perm.mem_iff.mpr List.mem_cons_self, rfl⟩
  have once := placed.once
  rw [(perm.map _).nodup_iff, List.map_cons, List.nodup_cons] at once
  have keeps := Machine.keepsCollecting_of_same responses
  refine ⟨_, placed.turn later (.held thread ⟨.runnable, some task⟩)
    (some ⟨.runnable, some task⟩) ?_ ?_ ?_ ?_ once.2 ?_ keeps ?_⟩
  · intro owner its isOwner
    rw [isWaiting] at isOwner
    cases isOwner
  · intro owner its
    simp only [Place.held.injEq, Option.some.injEq]
    exact ⟨fun ⟨isOwner, isIts⟩ => ⟨isOwner.symm, isIts⟩,
      fun ⟨isOwner, isIts⟩ => ⟨isOwner.symm, isIts⟩⟩
  · rw [states, eq_comm, Function.update_eq_self_iff, placed.states, isWaiting]
    rfl
  · intro other
    rw [perm.mem_iff, List.mem_cons]
    refine ⟨fun member => .inr ⟨fun same => ?_, .inr member⟩, ?_⟩
    · exact once.1 (same ▸ List.mem_map_of_mem member)
    · rintro (⟨_, never⟩ | ⟨different, rfl | member⟩)
      · cases never
      · exact absurd rfl different
      · exact member
  · rintro other isTask
    cases isTask
    obtain ⟨isId, isNew, prepares, awaits⟩ := placed.tasks _ task (by rw [isWaiting]; rfl)
    exact ⟨isId, isNew, prepares, keeps.awaits awaits⟩
  · intro other isBeyond
    rw [nextId] at isBeyond
    rw [states]
    exact placed.bounded other isBeyond

end Placed

end Balance

end WorkerMachine
