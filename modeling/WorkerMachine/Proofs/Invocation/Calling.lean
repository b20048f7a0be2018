import WorkerMachine.Proofs.Invocation.Ledger
import WorkerMachine.Proofs.Invocation.Minding
/-!
# Calls among threads that mind their own business

What is true of a machine and of its threads between any two steps in the course of one call, while
all threads mind their own business: every task that the call has made has the arguments in its
registers, nobody but the call itself has moved its parent or a context that has not begun, and the
response has gathered exactly what the workers have handed in.
-/

namespace WorkerMachine

/-- A call of a unit by a thread: the context below which the unit is called, the registers from
which the arguments are read, and the response that gathers what the workers hand in. -/
structure Call where
  unit : Callable
  parent : Context
  source : RegisterFile
  thread : ThreadId
  response : ResponseId

/-- What the caller notes about a call. -/
structure Notes where
  /-- The tasks that have been made. -/
  made : List Task
  /-- The state in which the caller counts on the parent to be, as long as it does. -/
  parentState : Option ContextState
  /-- How the workers have ended, once the caller has found that all have. -/
  settled : Option (List Ending)
  /-- The caller has given the call up. -/
  givenUp : Bool

namespace Call

/-- The file holds the arguments in the slots of the parameters, and zeros elsewhere. -/
structure Seeded (call : Call) (worker : Worker) (locals : RegisterFile) : Prop where
  sized : locals.sizes = worker.locals
  content : ∀ slot, locals.cell? slot =
    if slot ∈ call.unit.params.slots then call.source.cell? slot
    else (RegisterFile.ofSizes worker.locals).cell? slot

/-- What is true of the tasks that a call makes. -/
structure Makes (call : Call) (task : Task) : Prop where
  response : task.response = call.response
  arena : task.context.arena = call.parent.arena
  parent : task.context.parent = some call.parent.id
  activity : task.context.activity = some (call.unit, task.worker)
  worker : task.worker ∈ call.unit.workers
  locals : call.Seeded task.worker task.context.locals
  results : task.context.results = .ofSizes call.unit.returns.sizes
  error : task.context.error = none

/-- The contexts on whose states a call counts. -/
inductive CountsOn (call : Call) (waiting : List Task) (duties : ThreadId → Duty)
    (parentState : Option ContextState) : ArenaKey × ContextId → ContextState → Prop
  | parent {state : ContextState} : parentState = some state →
      CountsOn call waiting duties parentState call.parent.place state
  | waiting {task : Task} : task ∈ waiting →
      CountsOn call waiting duties parentState task.context.place .runnable
  | unbegun {thread : ThreadId} {task : Task} {state : ContextState} :
      (duties thread).unbegun? = some (task, state) →
      CountsOn call waiting duties parentState task.context.place state

variable (arenas : Set ArenaKey) (call : Call)

/-- What is true between any two steps, while the threads have these duties and belongings. -/
structure Sound (machine : Machine) (duties : ThreadId → Duty) (owns : ThreadId → Belongings)
    (notes : Notes) : Prop where
  inArenas : call.parent.arena ∈ arenas
  makes : ∀ task ∈ notes.made, call.Makes task
  distinct : (notes.made.map fun task => task.context.id).Nodup
  workers : (notes.made.map Task.worker).Subperm call.unit.workers
  younger : ∀ task ∈ notes.made, call.parent.id < task.context.id
  parentOlder : call.parent.id < (machine.arena call.parent.arena).nextId
  older : ∀ task ∈ notes.made, task.context.id < (machine.arena call.parent.arena).nextId
  ledger : Ledger notes.made (machine.waiting call.response) (machine.starts call.response)
    ((machine.endings call.response).map Ending.task) duties notes.givenUp
  proper : ∀ ending ∈ machine.endings call.response, ending.Proper call.unit
  states : ∀ place state, call.CountsOn (machine.waiting call.response) duties notes.parentState place state →
    machine.stateIn? place.1 place.2 = some state
  owns : ∀ thread, (owns thread).Within arenas machine ∧ call.response ∉ (owns thread).responses ∧
    ∀ place state, call.CountsOn (machine.waiting call.response) duties notes.parentState place state →
      place ∉ (owns thread).contexts
  strangers : ∀ task ∈ machine.spawned, task.response ≠ call.response →
    (Belongings.ofTask task).Within arenas machine ∧
      ∀ state, ¬ call.CountsOn (machine.waiting call.response) duties notes.parentState task.context.place state
  opened : call.response < machine.responses.size
  gathered : notes.givenUp = false →
    machine.response call.response = call.unit.gathered (machine.endings call.response)
  settled : ∀ endings, notes.settled = some endings →
    machine.endings call.response = endings ∧ endings.length = call.unit.workers.length

namespace Sound

variable {arenas : Set ArenaKey} {call : Call} {machine later : Machine}
  {duties : ThreadId → Duty} {owns : ThreadId → Belongings} {notes : Notes} {thread : ThreadId}

theorem eq_of_sameId (sound : call.Sound arenas machine duties owns notes) {task other : Task}
    (member : task ∈ notes.made) (otherMember : other ∈ notes.made)
    (sameId : task.context.id = other.context.id) : task = other :=
  List.inj_on_of_nodup_map sound.distinct member otherMember sameId

theorem counted_older (sound : call.Sound arenas machine duties owns notes)
    {place : ArenaKey × ContextId} {state : ContextState}
    (counted : call.CountsOn (machine.waiting call.response) duties notes.parentState place state) :
    place.1 = call.parent.arena ∧ place.2 < (machine.arena call.parent.arena).nextId := by
  have ofMade : ∀ task ∈ notes.made, task.context.place.1 = call.parent.arena ∧
      task.context.place.2 < (machine.arena call.parent.arena).nextId := by
    intro task member
    exact ⟨(sound.makes task member).arena, sound.older task member⟩
  cases counted with
  | parent expected =>
      exact ⟨rfl, sound.parentOlder⟩
  | waiting member =>
      exact ofMade _ (sound.ledger.waits _ member).1
  | unbegun holds =>
      exact ofMade _ (sound.ledger.unbegun _ _ _ holds).1

theorem length_made_le (sound : call.Sound arenas machine duties owns notes) :
    notes.made.length ≤ call.unit.workers.length := by
  have fewer := sound.workers.length_le
  rwa [List.length_map] at fewer

theorem length_endings_lt (sound : call.Sound arenas machine duties owns notes) {task : Task}
    (inCharge : (duties thread).task? = some task) :
    (machine.endings call.response).length < call.unit.workers.length := by
  obtain ⟨isMade, notEnded⟩ := sound.ledger.of_task? inCharge
  have fewer := sound.ledger.length_ended_lt isMade notEnded
  rw [List.length_map] at fewer
  exact Nat.lt_of_lt_of_le fewer sound.length_made_le

theorem spared (sound : call.Sound arenas machine duties owns notes) {grown : Belongings}
    (spares : Spares arenas (owns thread) grown machine later) :
    call.Sound arenas later duties (Function.update owns thread grown) notes := by
  obtain ⟨_, notMine, apartFromMine⟩ := sound.owns thread
  have sameStarts := spares.starts call.response sound.opened notMine
  have sameEndings := spares.endings call.response sound.opened notMine
  have sameWaiting := spares.waiting call.response sound.opened notMine
  have apartFromGrown : ∀ place state,
      call.CountsOn (machine.waiting call.response) duties notes.parentState place state →
        place ∉ grown.contexts := by
    intro place state counted member
    rcases spares.newContexts place.1 place.2 member with isMine | isNew
    · exact apartFromMine place state counted isMine
    · obtain ⟨sameArena, older⟩ := sound.counted_older counted
      rw [sameArena] at isNew
      exact Nat.not_lt.mpr isNew older
  have notGrown : call.response ∉ grown.responses := by
    intro member
    rcases spares.newResponses _ member with isMine | isNew
    · exact notMine isMine
    · exact Nat.not_lt.mpr isNew sound.opened
  constructor
  case inArenas =>
    exact sound.inArenas
  case makes =>
    exact sound.makes
  case distinct =>
    exact sound.distinct
  case workers =>
    exact sound.workers
  case younger =>
    exact sound.younger
  case parentOlder =>
    exact Nat.lt_of_lt_of_le sound.parentOlder (spares.nextIds _)
  case older =>
    exact fun task member => Nat.lt_of_lt_of_le (sound.older task member) (spares.nextIds _)
  case ledger =>
    rw [sameStarts, sameEndings, sameWaiting]
    exact sound.ledger
  case proper =>
    rw [sameEndings]
    exact sound.proper
  case states =>
    rw [sameWaiting]
    intro place state counted
    have isState := sound.states place state counted
    obtain ⟨sameArena, older⟩ := sound.counted_older counted
    rw [← sameArena] at older
    rw [spares.states place.1 place.2 older (apartFromMine place state counted)]
    exact isState
  case owns =>
    rw [sameWaiting]
    intro other
    by_cases isThread : other = thread
    · subst isThread
      rw [Function.update_self]
      exact ⟨spares.within, notGrown, apartFromGrown⟩
    · rw [Function.update_of_ne isThread]
      obtain ⟨within, notOther, apartFromOther⟩ := sound.owns other
      exact ⟨within.of_grown spares.nextIds spares.opened, notOther, apartFromOther⟩
  case strangers =>
    rw [sameWaiting]
    intro task member isStranger
    rcases spares.handed task member with wasThere | ⟨ownContext, ownResponse⟩
    · obtain ⟨within, uncounted⟩ := sound.strangers task wasThere isStranger
      exact ⟨within.of_grown spares.nextIds spares.opened, uncounted⟩
    · refine ⟨⟨?_, ?_⟩, fun state counted => apartFromGrown _ state counted ownContext⟩
      · rintro arena id ⟨rfl, rfl⟩
        exact spares.within.contexts _ _ ownContext
      · rintro response rfl
        exact spares.within.responses _ ownResponse
  case opened =>
    exact Nat.lt_of_lt_of_le sound.opened spares.opened
  case gathered =>
    intro notGivenUp
    rw [spares.responses call.response sound.opened notMine, sameEndings]
    exact sound.gathered notGivenUp
  case settled =>
    rw [sameEndings]
    exact sound.settled

/-! ### What the call counts on, when duties change -/

/-- A thread that takes over a duty counts on what the duty is about, and otherwise on nothing
new. -/
theorem counted_update {waiting : List Task} {duty : Duty} {place : ArenaKey × ContextId}
    {state : ContextState}
    (counted : call.CountsOn waiting (Function.update duties thread duty) notes.parentState place state) :
    (∃ task, duty.unbegun? = some (task, state) ∧ place = task.context.place) ∨
      call.CountsOn waiting (Function.update duties thread .none) notes.parentState place state := by
  cases counted with
  | parent expected =>
      exact .inr (.parent expected)
  | waiting member =>
      exact .inr (.waiting member)
  | @unbegun other task _ holds =>
      by_cases isThread : other = thread
      · subst isThread
        rw [Function.update_self] at holds
        exact .inl ⟨task, holds, rfl⟩
      · have still : (Function.update duties thread .none other).unbegun? = some (task, state) := by
          rw [Function.update_of_ne isThread] at holds ⊢
          exact holds
        exact .inr (.unbegun still)

/-- A thread that is relieved of its duty counts on nothing new. -/
theorem counted_of_relieved {waiting : List Task} {place : ArenaKey × ContextId}
    {state : ContextState}
    (counted : call.CountsOn waiting (Function.update duties thread .none) notes.parentState place state) :
    call.CountsOn waiting duties notes.parentState place state := by
  cases counted with
  | parent expected =>
      exact .parent expected
  | waiting member =>
      exact .waiting member
  | @unbegun other task _ holds =>
      by_cases isThread : other = thread
      · subst isThread
        rw [Function.update_self] at holds
        cases holds
      · rw [Function.update_of_ne isThread] at holds
        exact .unbegun holds

/-- Once a thread is relieved of a task that has not begun, nobody counts on the context of the
task. -/
theorem ne_of_relieved (sound : call.Sound arenas machine duties owns notes) {task : Task}
    {before state : ContextState} (unbegun : (duties thread).unbegun? = some (task, before))
    {place : ArenaKey × ContextId}
    (counted : call.CountsOn (machine.waiting call.response)
      (Function.update duties thread .none) notes.parentState place state) : place ≠ task.context.place := by
  obtain ⟨member, _, notWaiting⟩ := sound.ledger.unbegun thread task before unbegun
  intro same
  have sameId : place.2 = task.context.id := congrArg Prod.snd same
  cases counted with
  | parent expected =>
      have younger := sound.younger task member
      exact absurd sameId (Nat.ne_of_lt younger)
  | @waiting other isWaiting =>
      obtain rfl := sound.eq_of_sameId (sound.ledger.waits other isWaiting).1 member sameId
      exact notWaiting isWaiting
  | @unbegun other held _ holds =>
      by_cases isThread : other = thread
      · subst isThread
        rw [Function.update_self] at holds
        cases holds
      · rw [Function.update_of_ne isThread] at holds
        obtain rfl := sound.eq_of_sameId (sound.ledger.unbegun other held state holds).1 member sameId
        exact isThread (sound.ledger.apart other thread held (Duty.task?_of_unbegun? holds)
          (Duty.task?_of_unbegun? unbegun))

/-! ### What threads and strangers own, when the call counts on something else -/

section Counting

variable {waiting : List Task} {laterDuties : ThreadId → Duty} {parentState : Option ContextState}

/-- Who owned nothing that the call counted on owns nothing that it counts on now, if that has been
counted on before or is new. -/
theorem owned (sound : call.Sound arenas machine duties owns notes)
    (nextIds : ∀ key, (machine.arena key).nextId ≤ (later.arena key).nextId)
    (opened : machine.responses.size ≤ later.responses.size)
    (known : ∀ {place state}, call.CountsOn waiting laterDuties parentState place state →
      (machine.arena place.1).nextId ≤ place.2 ∨ ∃ before,
        call.CountsOn (machine.waiting call.response) duties notes.parentState place before)
    (other : ThreadId) :
    (owns other).Within arenas later ∧ call.response ∉ (owns other).responses ∧
      ∀ place state, call.CountsOn waiting laterDuties parentState place state →
        place ∉ (owns other).contexts := by
  obtain ⟨within, notMine, apart⟩ := sound.owns other
  refine ⟨within.of_grown nextIds opened, notMine, fun place state counted member => ?_⟩
  rcases known counted with isNew | ⟨before, wasCounted⟩
  · exact absurd (within.contexts _ _ member).2 (Nat.not_lt.mpr isNew)
  · exact apart place before wasCounted member

/-- A task of another call is still of no concern to this one, if what the call counts on has been
counted on before or is new. -/
theorem estranged (sound : call.Sound arenas machine duties owns notes)
    (nextIds : ∀ key, (machine.arena key).nextId ≤ (later.arena key).nextId)
    (opened : machine.responses.size ≤ later.responses.size)
    (known : ∀ {place state}, call.CountsOn waiting laterDuties parentState place state →
      (machine.arena place.1).nextId ≤ place.2 ∨ ∃ before,
        call.CountsOn (machine.waiting call.response) duties notes.parentState place before)
    {task : Task} (wasSpawned : task ∈ machine.spawned) (isStranger : task.response ≠ call.response) :
    (Belongings.ofTask task).Within arenas later ∧
      ∀ state, ¬ call.CountsOn waiting laterDuties parentState task.context.place state := by
  obtain ⟨within, uncounted⟩ := sound.strangers task wasSpawned isStranger
  refine ⟨within.of_grown nextIds opened, fun state counted => ?_⟩
  rcases known counted with isNew | ⟨before, wasCounted⟩
  · exact absurd (within.contexts _ _ rfl).2 (Nat.not_lt.mpr isNew)
  · exact uncounted before wasCounted

end Counting

/-! ### Steps of the call -/

/-- A change of the context below which the unit is called, or of the context that has its name in
another arena. -/
theorem alterParent (sound : call.Sound arenas machine duties owns notes) (arena : ArenaKey)
    {change : Arena → Arena} (alters : ∀ records : Arena,
      records.AltersOnly call.parent.id (change records))
    (parentState : Option ContextState)
    (expects : ∀ state, parentState = some state → notes.parentState.isSome = true ∧
      (machine.alterArena arena change).stateIn? call.parent.arena call.parent.id = some state) :
    call.Sound arenas (machine.alterArena arena change) duties owns
      { notes with parentState := parentState } := by
  have nextIds := fun key => machine.nextId_alterArena arena alters key
  have known : ∀ {place state},
      call.CountsOn (machine.waiting call.response) duties parentState place state →
        (machine.arena place.1).nextId ≤ place.2 ∨ ∃ before,
          call.CountsOn (machine.waiting call.response) duties notes.parentState place before := by
    intro place state counted
    refine .inr ?_
    cases counted with
    | parent expected =>
        obtain ⟨before, wasExpected⟩ := Option.isSome_iff_exists.mp (expects state expected).1
        exact ⟨before, .parent wasExpected⟩
    | waiting member =>
        exact ⟨_, .waiting member⟩
    | unbegun holds =>
        exact ⟨_, .unbegun holds⟩
  exact
    { sound with
      parentOlder := by
        rw [nextIds]
        exact sound.parentOlder
      older := by
        rw [nextIds]
        exact sound.older
      states := by
        intro place state counted
        have ofTask : ∀ task ∈ notes.made,
            machine.stateIn? task.context.arena task.context.id = some state →
              (machine.alterArena arena change).stateIn? task.context.arena task.context.id =
                some state := by
          intro task member isState
          have different := Nat.ne_of_gt (sound.younger task member)
          rw [machine.stateIn?_alterArena_of_ne _ alters fun same =>
            different (congrArg Prod.snd same)]
          exact isState
        cases counted with
        | parent expected =>
            exact (expects state expected).2
        | waiting member =>
            exact ofTask _ (sound.ledger.waits _ member).1 (sound.states _ _ (.waiting member))
        | unbegun holds =>
            exact ofTask _ (sound.ledger.unbegun _ _ _ holds).1 (sound.states _ _ (.unbegun holds))
      owns := sound.owned (fun key => (nextIds key).ge) (le_refl _) known
      strangers := fun _ => sound.estranged (fun key => (nextIds key).ge) (le_refl _) known }

theorem register (sound : call.Sound arenas machine duties owns notes) {task : Task}
    (free : duties thread = .none) (makes : call.Makes task)
    (isNext : task.context.id = (machine.arena call.parent.arena).nextId)
    (workers : ((notes.made ++ [task]).map Task.worker).Subperm call.unit.workers)
    {record : ContextRecord} (created : record.state = .created) :
    call.Sound arenas
      (machine.alterArena call.parent.arena fun records => (records.register record).2)
      (Function.update duties thread (.preparing task)) owns
      { notes with made := notes.made ++ [task] } := by
  generalize isLater :
    (machine.alterArena call.parent.arena fun records => (records.register record).2) = later
  have nextIds : ∀ key, (machine.arena key).nextId ≤ (later.arena key).nextId := by
    subst isLater
    exact machine.nextId_le_register call.parent.arena record
  have isYounger : task.context.id < (later.arena call.parent.arena).nextId := by
    subst isLater
    unfold Machine.alterArena
    rw [Machine.arena_setArena, if_pos rfl, isNext]
    exact Nat.lt_succ_self _
  have statesBefore : ∀ key id, id < (machine.arena key).nextId →
      later.stateIn? key id = machine.stateIn? key id := by
    intro key id older
    subst isLater
    rw [machine.stateIn?_register, if_neg]
    rintro ⟨rfl, rfl⟩
    exact Nat.lt_irrefl _ older
  have isCreated : later.stateIn? task.context.arena task.context.id = some .created := by
    subst isLater
    rw [machine.stateIn?_register, if_pos ⟨makes.arena, isNext⟩, created]
  have sameWaiting : later.waiting call.response = machine.waiting call.response := by
    subst isLater
    rfl
  have notMade : task ∉ notes.made := by
    intro member
    have older := sound.older task member
    rw [isNext] at older
    exact Nat.lt_irrefl _ older
  have splits : ∀ {place state},
      call.CountsOn (machine.waiting call.response)
          (Function.update duties thread (.preparing task))
          notes.parentState place state →
        (place = task.context.place ∧ state = .created) ∨
          call.CountsOn (machine.waiting call.response) duties notes.parentState place state := by
    intro place state counted
    rcases counted_update counted with ⟨held, holds, rfl⟩ | counted
    · cases holds
      exact .inl ⟨rfl, rfl⟩
    · exact .inr (counted_of_relieved counted)
  have known : ∀ {place state},
      call.CountsOn (machine.waiting call.response)
          (Function.update duties thread (.preparing task)) notes.parentState place state →
        (machine.arena place.1).nextId ≤ place.2 ∨ ∃ before,
          call.CountsOn (machine.waiting call.response) duties notes.parentState place before := by
    intro place state counted
    rcases splits counted with ⟨rfl, _⟩ | wasCounted
    · refine .inl ?_
      change (machine.arena task.context.arena).nextId ≤ task.context.id
      rw [makes.arena, isNext]
    · exact .inr ⟨state, wasCounted⟩
  have sameSize : machine.responses.size ≤ later.responses.size := by
    subst isLater
    exact le_refl _
  constructor
  case inArenas =>
    exact sound.inArenas
  case makes =>
    intro other member
    rcases List.mem_append.mp member with wasMade | isNew
    · exact sound.makes other wasMade
    · obtain rfl := List.mem_singleton.mp isNew
      exact makes
  case distinct =>
    rw [List.map_append, List.map_singleton, List.nodup_append]
    refine ⟨sound.distinct, List.nodup_singleton _, ?_⟩
    intro id isOld other isNew same
    obtain ⟨old, wasMade, rfl⟩ := List.mem_map.mp isOld
    obtain rfl := List.mem_singleton.mp isNew
    have older := sound.older old wasMade
    rw [same, isNext] at older
    exact Nat.lt_irrefl _ older
  case workers =>
    exact workers
  case younger =>
    intro other member
    rcases List.mem_append.mp member with wasMade | isNew
    · exact sound.younger other wasMade
    · obtain rfl := List.mem_singleton.mp isNew
      rw [isNext]
      exact sound.parentOlder
  case parentOlder =>
    exact Nat.lt_of_lt_of_le sound.parentOlder (nextIds _)
  case older =>
    intro other member
    rcases List.mem_append.mp member with wasMade | isNew
    · exact Nat.lt_of_lt_of_le (sound.older other wasMade) (nextIds _)
    · obtain rfl := List.mem_singleton.mp isNew
      exact isYounger
  case ledger =>
    subst isLater
    exact sound.ledger.make free notMade
  case proper =>
    subst isLater
    exact sound.proper
  case states =>
    rw [sameWaiting]
    intro place state counted
    rcases splits counted with ⟨rfl, rfl⟩ | wasCounted
    · exact isCreated
    · obtain ⟨sameArena, older⟩ := sound.counted_older wasCounted
      rw [← sameArena] at older
      rw [statesBefore _ _ older]
      exact sound.states place state wasCounted
  case owns =>
    rw [sameWaiting]
    exact sound.owned nextIds sameSize known
  case strangers =>
    rw [sameWaiting]
    intro other member
    have wasSpawned : other ∈ machine.spawned := by
      subst isLater
      exact member
    exact sound.estranged nextIds sameSize known wasSpawned
  case opened =>
    subst isLater
    exact sound.opened
  case gathered =>
    subst isLater
    exact sound.gathered
  case settled =>
    subst isLater
    exact sound.settled

/-- What the call counts on is not moved along with the context of a task that a thread has not
begun. -/
theorem stateIn?_of_relieved (sound : call.Sound arenas machine duties owns notes) {task : Task}
    {before state : ContextState} (unbegun : (duties thread).unbegun? = some (task, before))
    {change : Arena → Arena} (alters : ∀ records : Arena,
      records.AltersOnly task.context.id (change records))
    {place : ArenaKey × ContextId}
    (counted : call.CountsOn (machine.waiting call.response)
      (Function.update duties thread .none) notes.parentState place state) :
    (machine.alterArena task.context.arena change).stateIn? place.1 place.2 = some state := by
  have different := sound.ne_of_relieved unbegun counted
  rw [machine.stateIn?_alterArena_of_ne _ alters different]
  exact sound.states place state (counted_of_relieved counted)

/-- The context of a task has been created, and the task is ready to run. -/
theorem ready (sound : call.Sound arenas machine duties owns notes) {task : Task}
    (prepares : duties thread = .preparing task) :
    call.Sound arenas
      (machine.alterArena task.context.arena fun records =>
        (records.transition task.context.id .runnable).2)
      (Function.update duties thread (.holding task)) owns notes := by
  have unbegun : (duties thread).unbegun? = some (task, .created) := by
    rw [prepares]
    rfl
  have alters := fun records : Arena => records.transition_altersOnly task.context.id .runnable
  have nextIds := fun key =>
    machine.nextId_alterArena task.context.arena alters key
  have wasCreated := sound.states _ _ (.unbegun unbegun)
  have known : ∀ {place state},
      call.CountsOn (machine.waiting call.response) (Function.update duties thread (.holding task))
          notes.parentState place state →
        (machine.arena place.1).nextId ≤ place.2 ∨ ∃ before,
          call.CountsOn (machine.waiting call.response) duties notes.parentState place before := by
    intro place state counted
    rcases counted_update counted with ⟨held, holds, rfl⟩ | relieved
    · cases holds
      exact .inr ⟨_, .unbegun unbegun⟩
    · exact .inr ⟨_, counted_of_relieved relieved⟩
  exact
    { sound with
      parentOlder := by
        rw [nextIds]
        exact sound.parentOlder
      older := by
        rw [nextIds]
        exact sound.older
      ledger := sound.ledger.ready prepares
      states := by
        intro place state counted
        rcases counted_update counted with ⟨held, holds, rfl⟩ | relieved
        · cases holds
          rw [show task.context.place = (task.context.arena, task.context.id) from rfl,
            machine.stateIn?_alterArena_self]
          exact (Arena.state?_transition wasCreated rfl).2
        · exact sound.stateIn?_of_relieved unbegun alters relieved
      owns := sound.owned (fun key => (nextIds key).ge) (le_refl _) known
      strangers := fun _ => sound.estranged (fun key => (nextIds key).ge) (le_refl _) known }

theorem spawn (sound : call.Sound arenas machine duties owns notes) {task : Task}
    (holds : duties thread = .holding task) :
    call.Sound arenas (machine.spawn task) (Function.update duties thread .none) owns notes := by
  have unbegun : (duties thread).unbegun? = some (task, .runnable) := by
    rw [holds]
    rfl
  have makes := sound.makes task (sound.ledger.unbegun thread task .runnable unbegun).1
  have oneMore : (machine.spawn task).waiting call.response =
      machine.waiting call.response ++ [task] := by
    unfold Machine.waiting Machine.spawn
    rw [List.filter_append]
    congr 1
    simp [makes.response]
  have wasCounted : ∀ {place state},
      call.CountsOn (machine.waiting call.response ++ [task])
          (Function.update duties thread .none) notes.parentState place state →
        call.CountsOn (machine.waiting call.response) duties notes.parentState place state := by
    intro place state counted
    cases counted with
    | parent expected =>
        exact .parent expected
    | waiting member =>
        rcases List.mem_append.mp member with waits | isTask
        · exact .waiting waits
        · obtain rfl := List.mem_singleton.mp isTask
          exact .unbegun unbegun
    | unbegun stillUnbegun =>
        exact counted_of_relieved (.unbegun stillUnbegun)
  have sameIds : ∀ key,
      (machine.arena key).nextId ≤ ((machine.spawn task).arena key).nextId := fun _ => le_refl _
  exact
    { sound with
      ledger := by
        rw [oneMore]
        exact sound.ledger.spawn holds
      states := by
        rw [oneMore]
        exact fun place state counted => sound.states place state (wasCounted counted)
      owns := by
        rw [oneMore]
        exact sound.owned sameIds (le_refl _) fun counted => .inr ⟨_, wasCounted counted⟩
      strangers := by
        rw [oneMore]
        intro other member isStranger
        rcases List.mem_append.mp member with wasSpawned | isTask
        · exact sound.estranged sameIds (le_refl _)
            (fun counted => .inr ⟨_, wasCounted counted⟩) wasSpawned isStranger
        · obtain rfl := List.mem_singleton.mp isTask
          exact absurd makes.response isStranger }

theorem arrive (sound : call.Sound arenas machine duties owns notes) {task : Task}
    {front rest : List Task} (nextThread : ThreadId) (free : duties thread = .none)
    (isSpawned : machine.spawned = front ++ task :: rest) (ofCall : task.response = call.response) :
    call.Sound arenas { machine with spawned := front ++ rest, nextThread := nextThread }
      (Function.update duties thread (.holding task)) owns notes := by
  generalize isLater :
    { machine with spawned := front ++ rest, nextThread := nextThread } = later
  have wasWaiting : machine.waiting call.response =
      front.filter (fun task => task.response = call.response) ++
        task :: rest.filter fun task => task.response = call.response := by
    unfold Machine.waiting
    rw [isSpawned, List.filter_append, List.filter_cons_of_pos (by simpa using ofCall)]
  have nowWaiting : later.waiting call.response =
      front.filter (fun task => task.response = call.response) ++
        rest.filter fun task => task.response = call.response := by
    subst isLater
    unfold Machine.waiting
    rw [List.filter_append]
  have wasThere : ∀ other ∈ later.waiting call.response,
      other ∈ machine.waiting call.response := by
    intro other member
    rw [nowWaiting] at member
    rw [wasWaiting]
    rcases List.mem_append.mp member with inFront | inRest
    · exact List.mem_append_left _ inFront
    · exact List.mem_append_right _ (List.mem_cons_of_mem _ inRest)
  have isThere : task ∈ machine.waiting call.response := by
    rw [wasWaiting]
    exact List.mem_append_right _ List.mem_cons_self
  have wasCounted : ∀ {place state},
      call.CountsOn (later.waiting call.response)
          (Function.update duties thread (.holding task)) notes.parentState place state →
        call.CountsOn (machine.waiting call.response) duties notes.parentState place state := by
    intro place state counted
    rcases counted_update counted with ⟨held, holds, rfl⟩ | relieved
    · cases holds
      exact .waiting isThere
    · cases counted_of_relieved relieved with
      | parent expected =>
          exact .parent expected
      | waiting member =>
          exact .waiting (wasThere _ member)
      | unbegun stillUnbegun =>
          exact .unbegun stillUnbegun
  have ledger : Ledger notes.made (later.waiting call.response) (machine.starts call.response)
      ((machine.endings call.response).map Ending.task)
      (Function.update duties thread (.holding task)) notes.givenUp := by
    have before := sound.ledger
    rw [wasWaiting] at before
    rw [nowWaiting]
    exact before.arrive free
  have wasSpawned : ∀ other ∈ later.spawned, other ∈ machine.spawned := by
    intro other member
    subst isLater
    rw [isSpawned]
    rcases List.mem_append.mp member with inFront | inRest
    · exact List.mem_append_left _ inFront
    · exact List.mem_append_right _ (List.mem_cons_of_mem _ inRest)
  have sameIds : ∀ key, (machine.arena key).nextId ≤ (later.arena key).nextId := by
    subst isLater
    exact fun _ => le_refl _
  have sameSize : machine.responses.size ≤ later.responses.size := by
    subst isLater
    exact le_refl _
  have owned := sound.owned sameIds sameSize fun counted => .inr ⟨_, wasCounted counted⟩
  have estranged := fun other (member : other ∈ later.spawned) =>
    sound.estranged sameIds sameSize (fun counted => .inr ⟨_, wasCounted counted⟩)
      (wasSpawned other member)
  have states : ∀ place state, call.CountsOn (later.waiting call.response)
      (Function.update duties thread (.holding task)) notes.parentState place state →
        later.stateIn? place.1 place.2 = some state := by
    intro place state counted
    subst isLater
    exact sound.states place state (wasCounted counted)
  subst isLater
  exact { sound with ledger := ledger, states := states, owns := owned, strangers := estranged }

/-- A thread comes for a task that is none of the call. -/
theorem arriveStranger (sound : call.Sound arenas machine duties owns notes) {task : Task}
    {front rest : List Task} (nextThread : ThreadId)
    (isSpawned : machine.spawned = front ++ task :: rest)
    (isStranger : task.response ≠ call.response) :
    call.Sound arenas { machine with spawned := front ++ rest, nextThread := nextThread } duties
      (Function.update owns thread (.ofTask task)) notes := by
  generalize isLater :
    { machine with spawned := front ++ rest, nextThread := nextThread } = later
  have sameWaiting : later.waiting call.response = machine.waiting call.response := by
    subst isLater
    unfold Machine.waiting
    rw [isSpawned, List.filter_append, List.filter_append,
      List.filter_cons_of_neg (by simpa using isStranger)]
  have isThere : task ∈ machine.spawned := by
    rw [isSpawned]
    exact List.mem_append_right _ List.mem_cons_self
  have wasSpawned : ∀ other ∈ later.spawned, other ∈ machine.spawned := by
    intro other member
    subst isLater
    rw [isSpawned]
    rcases List.mem_append.mp member with inFront | inRest
    · exact List.mem_append_left _ inFront
    · exact List.mem_append_right _ (List.mem_cons_of_mem _ inRest)
  have within : ∀ {own : Belongings}, own.Within arenas machine → own.Within arenas later := by
    intro own before
    subst isLater
    exact ⟨before.contexts, before.responses⟩
  obtain ⟨taskWithin, taskUncounted⟩ := sound.strangers task isThere isStranger
  have owned : ∀ other, (Function.update owns thread (.ofTask task) other).Within arenas later ∧
      call.response ∉ (Function.update owns thread (.ofTask task) other).responses ∧
        ∀ place state, call.CountsOn (later.waiting call.response) duties notes.parentState place state →
          place ∉ (Function.update owns thread (.ofTask task) other).contexts := by
    rw [sameWaiting]
    intro other
    by_cases isThread : other = thread
    · subst isThread
      rw [Function.update_self]
      refine ⟨within taskWithin, fun same => isStranger same.symm, ?_⟩
      rintro place state counted rfl
      exact taskUncounted state counted
    · rw [Function.update_of_ne isThread]
      obtain ⟨otherWithin, notMine, apart⟩ := sound.owns other
      exact ⟨within otherWithin, notMine, apart⟩
  have strangers : ∀ other ∈ later.spawned, other.response ≠ call.response →
      (Belongings.ofTask other).Within arenas later ∧
        ∀ state, ¬ call.CountsOn (later.waiting call.response) duties notes.parentState
          other.context.place state := by
    rw [sameWaiting]
    intro other member otherStranger
    obtain ⟨otherWithin, uncounted⟩ := sound.strangers other (wasSpawned other member) otherStranger
    exact ⟨within otherWithin, uncounted⟩
  have ledger : Ledger notes.made (later.waiting call.response) (machine.starts call.response)
      ((machine.endings call.response).map Ending.task) duties notes.givenUp := by
    rw [sameWaiting]
    exact sound.ledger
  have states : ∀ place state, call.CountsOn (later.waiting call.response) duties notes.parentState place
      state → later.stateIn? place.1 place.2 = some state := by
    rw [sameWaiting]
    intro place state counted
    subst isLater
    exact sound.states place state counted
  subst isLater
  exact { sound with ledger := ledger, states := states, owns := owned, strangers := strangers }

/-- A thread begins with a task of the call, and from then on the context of the task belongs to the
thread. -/
theorem commence (sound : call.Sound arenas machine duties owns notes) {task : Task}
    (holds : duties thread = .holding task) :
    call.Sound arenas
      ((machine.alterArena task.context.arena fun records =>
        (records.transition task.context.id .running).2).record (.started task))
      (Function.update duties thread (.running task))
      (Function.update owns thread (.ofContext task.context)) notes := by
  have unbegun : (duties thread).unbegun? = some (task, .runnable) := by
    rw [holds]
    rfl
  have isMade := (sound.ledger.unbegun thread task .runnable unbegun).1
  have makes := sound.makes task isMade
  have alters := fun records : Arena => records.transition_altersOnly task.context.id .running
  have nextIds := fun key =>
    machine.nextId_alterArena task.context.arena alters key
  generalize isMoved : (machine.alterArena task.context.arena fun records =>
    (records.transition task.context.id .running).2) = moved at nextIds ⊢
  have movedStates : ∀ place state, call.CountsOn (machine.waiting call.response)
      (Function.update duties thread .none) notes.parentState place state →
        moved.stateIn? place.1 place.2 = some state := by
    intro place state counted
    subst isMoved
    exact sound.stateIn?_of_relieved unbegun alters counted
  have relieved : ∀ {place state}, call.CountsOn (machine.waiting call.response)
      (Function.update duties thread (.running task)) notes.parentState place state →
        call.CountsOn (machine.waiting call.response) (Function.update duties thread .none) notes.parentState
          place state := by
    intro place state counted
    rcases counted_update counted with ⟨held, holds, _⟩ | relieved
    · cases holds
    · exact relieved
  have starts : (moved.record (.started task)).starts call.response =
      machine.starts call.response ++ [task] := by
    rw [Machine.starts_record_started, if_pos makes.response]
    subst isMoved
    rfl
  have wasCounted : ∀ {place state},
      call.CountsOn ((moved.record (.started task)).waiting call.response)
          (Function.update duties thread (.running task)) notes.parentState place state →
        (machine.arena place.1).nextId ≤ place.2 ∨ ∃ before,
          call.CountsOn (machine.waiting call.response) duties notes.parentState place before := by
    subst isMoved
    exact fun counted => .inr ⟨_, counted_of_relieved (relieved counted)⟩
  have sameIds : ∀ key, (machine.arena key).nextId ≤
      ((moved.record (.started task)).arena key).nextId := fun key => (nextIds key).ge
  have sameSize : machine.responses.size ≤ (moved.record (.started task)).responses.size := by
    subst isMoved
    exact le_refl _
  have taskWithin : (Belongings.ofContext task.context).Within arenas
      (moved.record (.started task)) := by
    refine ⟨?_, fun _ never => never.elim⟩
    rintro _ _ ⟨rfl, rfl⟩
    refine ⟨by rw [makes.arena]; exact sound.inArenas, ?_⟩
    refine Nat.lt_of_lt_of_le ?_ (nextIds _).ge
    rw [makes.arena]
    exact sound.older task isMade
  constructor
  case inArenas =>
    exact sound.inArenas
  case makes =>
    exact sound.makes
  case distinct =>
    exact sound.distinct
  case workers =>
    exact sound.workers
  case younger =>
    exact sound.younger
  case parentOlder =>
    exact Nat.lt_of_lt_of_le sound.parentOlder (nextIds _).ge
  case older =>
    exact fun other member => Nat.lt_of_lt_of_le (sound.older other member) (nextIds _).ge
  case ledger =>
    rw [starts]
    subst isMoved
    exact sound.ledger.start holds
  case proper =>
    subst isMoved
    exact sound.proper
  case states =>
    intro place state counted
    refine movedStates place state (relieved ?_)
    subst isMoved
    exact counted
  case owns =>
    intro other
    by_cases isThread : other = thread
    · subst isThread
      rw [Function.update_self]
      refine ⟨taskWithin, fun never => never.elim, ?_⟩
      intro place state counted
      subst isMoved
      exact sound.ne_of_relieved unbegun (relieved counted)
    · rw [Function.update_of_ne isThread]
      exact sound.owned sameIds sameSize wasCounted other
  case strangers =>
    intro other member
    have wasSpawned : other ∈ machine.spawned := by
      subst isMoved
      exact member
    exact sound.estranged sameIds sameSize wasCounted wasSpawned
  case opened =>
    subst isMoved
    exact sound.opened
  case gathered =>
    subst isMoved
    exact sound.gathered
  case settled =>
    subst isMoved
    exact sound.settled

/-- Unless the call is given up, the response takes over the ending of every worker. -/
theorem contribute_ending (sound : call.Sound arenas machine duties owns notes)
    (unitSound : call.unit.Sound) {ending : Ending} (runs : duties thread = .running ending.task)
    (proper : ending.Proper call.unit) (notGivenUp : notes.givenUp = false) :
    (machine.response call.response).contribute ending.after.id
        (judge ending.after ending.outcome) ending.after.results =
      (call.unit.gathered (machine.endings call.response ++ [ending]),
        .ok (decide ((machine.endings call.response).length + 1 =
          call.unit.workers.length))) := by
  have inCharge : (duties thread).task? = some ending.task := by
    rw [runs]
    rfl
  obtain ⟨isMade, notEnded⟩ := sound.ledger.of_task? inCharge
  have isNew : ending.after.id ∉
      (machine.endings call.response).map fun earlier => earlier.after.id := by
    intro member
    obtain ⟨earlier, isEnding, sameId⟩ := List.mem_map.mp member
    have ended : earlier.task ∈ (machine.endings call.response).map Ending.task :=
      List.mem_map_of_mem isEnding
    have earlierMade := sound.ledger.begins _ (sound.ledger.ends _ ended)
    have sameTask : earlier.task = ending.task := by
      refine sound.eq_of_sameId earlierMade isMade ?_
      rw [← proper.sameId, ← (sound.proper earlier isEnding).sameId]
      exact sameId
    rw [sameTask] at ended
    exact notEnded ended
  rw [sound.gathered notGivenUp]
  exact contribute_gathered unitSound proper isNew (sound.length_endings_lt inCharge)

/-- Unless the call is given up, no worker runs past the end of a bank when its ending is handed
in. -/
theorem endTask_accepted (sound : call.Sound arenas machine duties owns notes)
    (unitSound : call.unit.Sound) {ending : Ending} (runs : duties thread = .running ending.task)
    (proper : ending.Proper call.unit) (notGivenUp : notes.givenUp = false) :
    (Machine.endTask ending.task ending.outcome ending.after machine).1 =
      .ok (decide ((machine.endings call.response).length + 1 = call.unit.workers.length)) := by
  have inCharge : (duties thread).task? = some ending.task := by
    rw [runs]
    rfl
  have makes := sound.makes ending.task (sound.ledger.of_task? inCharge).1
  unfold Machine.endTask
  rw [makes.response]
  exact congrArg Prod.snd (sound.contribute_ending unitSound runs proper notGivenUp)

theorem finish (sound : call.Sound arenas machine duties owns notes) (unitSound : call.unit.Sound)
    {ending : Ending} (runs : duties thread = .running ending.task)
    (proper : ending.Proper call.unit) :
    call.Sound arenas
      (Machine.endTask ending.task ending.outcome ending.after machine).2
      (Function.update duties thread .none) owns notes := by
  have inCharge : (duties thread).task? = some ending.task := by
    rw [runs]
    rfl
  have makes := sound.makes ending.task (sound.ledger.of_task? inCharge).1
  have fewer := sound.length_endings_lt inCharge
  generalize isLater :
    (Machine.endTask ending.task ending.outcome ending.after machine).2 = later
  have endings : later.endings call.response = machine.endings call.response ++ [ending] := by
    subst isLater
    rw [machine.endings_endTask, if_pos makes.response]
  have relieved : ∀ {place state}, call.CountsOn (machine.waiting call.response)
      (Function.update duties thread .none) notes.parentState place state →
        call.CountsOn (machine.waiting call.response) duties notes.parentState place state :=
    fun counted => counted_of_relieved counted
  have sameSize : later.responses.size = machine.responses.size := by
    subst isLater
    exact Machine.size_responses_contribute _ _ _ _ _
  have sameIds : ∀ key, (machine.arena key).nextId ≤ (later.arena key).nextId := by
    subst isLater
    exact fun _ => le_refl _
  have gathered : notes.givenUp = false →
      later.response call.response =
        call.unit.gathered (machine.endings call.response ++ [ending]) := by
    intro notGivenUp
    subst isLater
    unfold Machine.endTask
    rw [Machine.response_contribute, makes.response, if_pos ⟨rfl, sound.opened⟩]
    exact congrArg Prod.fst (sound.contribute_ending unitSound runs proper notGivenUp)
  have ledger : Ledger notes.made (machine.waiting call.response) (machine.starts call.response)
      ((later.endings call.response).map Ending.task) (Function.update duties thread .none)
      notes.givenUp := by
    rw [endings, List.map_append]
    exact sound.ledger.finish runs
  have properAfter : ∀ other ∈ later.endings call.response, other.Proper call.unit := by
    rw [endings]
    intro other member
    rcases List.mem_append.mp member with isEnding | isNew
    · exact sound.proper other isEnding
    · obtain rfl := List.mem_singleton.mp isNew
      exact proper
  have settled : ∀ told, notes.settled = some told →
      later.endings call.response = told ∧ told.length = call.unit.workers.length := by
    intro told isSettled
    obtain ⟨isTold, all⟩ := sound.settled told isSettled
    rw [isTold, all] at fewer
    exact absurd fewer (Nat.lt_irrefl _)
  have owned := sound.owned sameIds sameSize.ge fun counted => .inr ⟨_, relieved counted⟩
  have estranged := fun other (member : other ∈ machine.spawned) =>
    sound.estranged sameIds sameSize.ge (fun counted => .inr ⟨_, relieved counted⟩) member
  have opened : call.response < later.responses.size := by
    rw [sameSize]
    exact sound.opened
  rw [← endings] at gathered
  subst isLater
  exact
    { sound with
      ledger := ledger
      proper := properAfter
      states := fun place state counted => sound.states place state (relieved counted)
      owns := owned
      strangers := estranged
      opened := opened
      gathered := gathered
      settled := settled }

/-- The caller finds that nothing is outstanding, and notes how the workers have ended. -/
theorem settle (sound : call.Sound arenas machine duties owns notes)
    (notGivenUp : notes.givenUp = false)
    (complete : (machine.response call.response).outstanding = 0) :
    call.Sound arenas machine duties owns
      { notes with settled := some (machine.endings call.response) } := by
  have all : (machine.endings call.response).length = call.unit.workers.length := by
    have fewer := sound.ledger.length_ended_le
    have made := sound.length_made_le
    rw [List.length_map] at fewer
    rw [sound.gathered notGivenUp] at complete
    have noneLeft : call.unit.workers.length - (machine.endings call.response).length = 0 :=
      complete
    omega
  exact
    { sound with
      settled := by
        rintro told same
        obtain rfl := Option.some.inj same
        exact ⟨rfl, all⟩ }

/-- The caller gives the call up, and counts on its parent no more. -/
theorem giveUp (sound : call.Sound arenas machine duties owns notes) :
    call.Sound arenas machine duties owns
      { notes with parentState := none, givenUp := true } := by
  have wasCounted : ∀ {place state},
      call.CountsOn (machine.waiting call.response) duties none place state →
        call.CountsOn (machine.waiting call.response) duties notes.parentState place state := by
    intro place state counted
    cases counted with
    | parent expected =>
        cases expected
    | waiting member =>
        exact .waiting member
    | unbegun holds =>
        exact .unbegun holds
  exact
    { sound with
      ledger := { sound.ledger with attended := fun never => by cases never }
      states := fun place state counted => sound.states place state (wasCounted counted)
      owns := sound.owned (fun _ => le_refl _) (le_refl _) fun counted =>
        .inr ⟨_, wasCounted counted⟩
      strangers := fun _ => sound.estranged (fun _ => le_refl _) (le_refl _) fun counted =>
        .inr ⟨_, wasCounted counted⟩
      gathered := fun never => by cases never }

/-- A caller that has given the call up drops the task that it has kept, and from then on the context
of the task belongs to nobody else. -/
theorem drop (sound : call.Sound arenas machine duties owns notes) {task : Task}
    (holds : duties thread = .holding task) (givenUp : notes.givenUp = true)
    (worker : ContextId) (outcome : WorkerOutcome) (result : RegisterFile) :
    call.Sound arenas (Machine.contribute task.response worker outcome result machine).2
      (Function.update duties thread .none)
      (Function.update owns thread (.ofContext task.context)) notes := by
  have unbegun : (duties thread).unbegun? = some (task, .runnable) := by
    rw [holds]
    rfl
  have isMade := (sound.ledger.unbegun thread task .runnable unbegun).1
  have makes := sound.makes task isMade
  have sameSize := machine.size_responses_contribute task.response worker outcome result
  generalize isLater :
    (Machine.contribute task.response worker outcome result machine).2 = later at sameSize ⊢
  have sameIds : ∀ key, (machine.arena key).nextId ≤ (later.arena key).nextId := by
    subst isLater
    exact fun _ => le_refl _
  have relieved : ∀ {place state}, call.CountsOn (machine.waiting call.response)
      (Function.update duties thread .none) notes.parentState place state →
        call.CountsOn (machine.waiting call.response) duties notes.parentState place state :=
    fun counted => counted_of_relieved counted
  have taskWithin : (Belongings.ofContext task.context).Within arenas machine := by
    refine ⟨?_, fun _ never => never.elim⟩
    rintro _ _ ⟨rfl, rfl⟩
    refine ⟨by rw [makes.arena]; exact sound.inArenas, ?_⟩
    rw [makes.arena]
    exact sound.older task isMade
  have ledger : Ledger notes.made (machine.waiting call.response) (machine.starts call.response)
      ((machine.endings call.response).map Ending.task) (Function.update duties thread .none)
      notes.givenUp := by
    have before := sound.ledger
    rw [givenUp] at before ⊢
    exact before.drop
  have owned : ∀ other,
      (Function.update owns thread (.ofContext task.context) other).Within arenas later ∧
        call.response ∉ (Function.update owns thread (.ofContext task.context) other).responses ∧
        ∀ place state, call.CountsOn (machine.waiting call.response)
            (Function.update duties thread .none) notes.parentState place state →
          place ∉ (Function.update owns thread (.ofContext task.context) other).contexts := by
    intro other
    by_cases isThread : other = thread
    · subst isThread
      rw [Function.update_self]
      exact ⟨taskWithin.of_grown sameIds sameSize.ge, fun never => never.elim,
        fun place state counted => sound.ne_of_relieved unbegun counted⟩
    · rw [Function.update_of_ne isThread]
      exact sound.owned sameIds sameSize.ge (fun counted => .inr ⟨_, relieved counted⟩) other
  have estranged := fun other (member : other ∈ machine.spawned) =>
    sound.estranged sameIds sameSize.ge (fun counted => .inr ⟨_, relieved counted⟩) member
  have opened : call.response < later.responses.size := by
    rw [sameSize]
    exact sound.opened
  have gathered : notes.givenUp = false →
      later.response call.response = call.unit.gathered (machine.endings call.response) := by
    rw [givenUp]
    intro never
    cases never
  subst isLater
  exact
    { sound with
      ledger := ledger
      states := fun place state counted => sound.states place state (relieved counted)
      owns := owned
      strangers := estranged
      opened := opened
      gathered := gathered }

end Sound

/-! ### The beginning -/

/-- A machine in which nothing is in the way of a call below a context: the context runs, nothing has
happened yet for the next response, and neither the threads nor the tasks that wait for threads have
to do with the context. -/
structure Clear (machine : Machine) (owns : ThreadId → Belongings) : Prop where
  inArenas : call.parent.arena ∈ arenas
  running : machine.stateIn? call.parent.arena call.parent.id = some .running
  parentOlder : call.parent.id < (machine.arena call.parent.arena).nextId
  next : call.response = machine.responses.size
  noStarts : machine.starts call.response = []
  noEndings : machine.endings call.response = []
  strangers : ∀ task ∈ machine.spawned, (Belongings.ofTask task).Within arenas machine ∧
    task.context.place ≠ call.parent.place
  owns : ∀ thread, (owns thread).Within arenas machine ∧
    call.parent.place ∉ (owns thread).contexts

def firstNotes : Notes where
  made := []
  parentState := some .running
  settled := none
  givenUp := false

variable {arenas call} in
theorem Clear.sound {machine : Machine} {owns : ThreadId → Belongings}
    (clear : call.Clear arenas machine owns) :
    call.Sound arenas
      (Machine.openResponse call.unit.returns true call.unit.workers.length machine).2
      (fun _ => .none) owns firstNotes := by
  generalize isLater :
    (Machine.openResponse call.unit.returns true call.unit.workers.length machine).2 = later
  have size : later.responses.size = machine.responses.size + 1 := by
    subst isLater
    exact machine.size_responses_openResponse _ _ _
  have grown : ∀ {own : Belongings}, own.Within arenas machine → own.Within arenas later := by
    intro own before
    refine before.of_grown ?_ (by rw [size]; exact Nat.le_succ _)
    subst isLater
    exact fun _ => le_refl _
  have noWaiting : later.waiting call.response = [] := by
    have sameSpawned : later.spawned = machine.spawned := by
      subst isLater
      rfl
    unfold Machine.waiting
    rw [sameSpawned, List.filter_eq_nil_iff]
    intro task member isCalls
    have older := (clear.strangers task member).1.responses task.response rfl
    rw [of_decide_eq_true isCalls, clear.next] at older
    exact Nat.lt_irrefl _ older
  have onlyParent : ∀ {place state},
      call.CountsOn (later.waiting call.response) (fun _ => .none) firstNotes.parentState place
          state →
        place = call.parent.place ∧ state = .running := by
    intro place state counted
    rw [noWaiting] at counted
    cases counted with
    | parent expected =>
        cases expected
        exact ⟨rfl, rfl⟩
    | waiting member =>
        cases member
    | unbegun holds =>
        cases holds
  have noStarts : later.starts call.response = [] := by
    subst isLater
    exact clear.noStarts
  have noEndings : later.endings call.response = [] := by
    subst isLater
    exact clear.noEndings
  have response : later.response call.response = call.unit.gathered [] := by
    subst isLater
    rw [Machine.response_openResponse, if_pos clear.next]
    exact openResponse_gathered call.unit
  constructor
  case inArenas =>
    exact clear.inArenas
  case makes =>
    intro task never
    cases never
  case distinct =>
    exact List.nodup_nil
  case workers =>
    exact List.nil_subperm
  case younger =>
    intro task never
    cases never
  case parentOlder =>
    subst isLater
    exact clear.parentOlder
  case older =>
    intro task never
    cases never
  case ledger =>
    rw [noWaiting, noStarts, noEndings]
    constructor
    case attended =>
      intro _ task never
      cases never
    all_goals simp [Duty.unbegun?, Duty.task?, firstNotes]
  case proper =>
    rw [noEndings]
    intro ending never
    cases never
  case states =>
    intro place state counted
    obtain ⟨rfl, rfl⟩ := onlyParent counted
    subst isLater
    exact clear.running
  case owns =>
    intro thread
    obtain ⟨within, apart⟩ := clear.owns thread
    refine ⟨grown within, fun member => ?_, fun place state counted => ?_⟩
    · have older := within.responses _ member
      rw [clear.next] at older
      exact Nat.lt_irrefl _ older
    · rw [(onlyParent counted).1]
      exact apart
  case strangers =>
    intro task member _
    have wasSpawned : task ∈ machine.spawned := by
      subst isLater
      exact member
    obtain ⟨within, apart⟩ := clear.strangers task wasSpawned
    exact ⟨grown within, fun state counted => apart (onlyParent counted).1⟩
  case opened =>
    rw [size, clear.next]
    exact Nat.lt_succ_self _
  case gathered =>
    intro _
    rw [noEndings]
    exact response
  case settled =>
    intro told never
    cases never

end Call

end WorkerMachine
