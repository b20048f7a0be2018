import Mathlib.Data.Set.Insert
import WorkerMachine.Machine.Runner
import WorkerMachine.Proofs.Invocation.Verdict
/-!
# Minding one's own business

Contexts and responses belong to whoever registers or opens them.  Work minds its own business if it
moves no context that belongs to somebody else, and hands nothing to a response of somebody else,
whatever others do meanwhile.  New contexts and responses belong to whoever makes them.
-/

namespace WorkerMachine

/-! ## What has happened for a response -/

def Happening.start? (response : ResponseId) : Happening → Option Task
  | .started task => if task.response = response then some task else none
  | .ended _ _ _ | .initCalled _ _ => none

def Happening.ending? (response : ResponseId) : Happening → Option Ending
  | .ended task outcome after =>
    if task.response = response then some ⟨task, outcome, after⟩ else none
  | .started _ | .initCalled _ _ => none

namespace Machine

/-- The tasks that have begun for a response, the first one in front. -/
def starts (machine : Machine) (response : ResponseId) : List Task :=
  (machine.history.filterMap (Happening.start? response)).reverse

/-- The endings that have been handed in to a response, the first one in front. -/
def endings (machine : Machine) (response : ResponseId) : List Ending :=
  (machine.history.filterMap (Happening.ending? response)).reverse

def waiting (machine : Machine) (response : ResponseId) : List Task :=
  machine.spawned.filter fun task => task.response = response

def stateIn? (machine : Machine) (arena : ArenaKey) (id : ContextId) : Option ContextState :=
  (machine.arena arena).state? id

theorem starts_record_started (machine : Machine) (task : Task) (response : ResponseId) :
    (machine.record (.started task)).starts response =
      if task.response = response then machine.starts response ++ [task]
      else machine.starts response := by
  unfold starts record
  by_cases same : task.response = response
  · have isStart : Happening.start? response (.started task) = some task := if_pos same
    rw [if_pos same, List.filterMap_cons_some isStart, List.reverse_cons]
  · have noStart : Happening.start? response (.started task) = none := if_neg same
    rw [if_neg same, List.filterMap_cons_none noStart]

theorem endings_record_ended (machine : Machine) (ending : Ending) (response : ResponseId) :
    (machine.record (.ended ending.task ending.outcome ending.after)).endings response =
      if ending.task.response = response then machine.endings response ++ [ending]
      else machine.endings response := by
  unfold endings record
  by_cases same : ending.task.response = response
  · have isEnding : Happening.ending? response
        (.ended ending.task ending.outcome ending.after) = some ending := if_pos same
    rw [if_pos same, List.filterMap_cons_some isEnding, List.reverse_cons]
  · have noEnding : Happening.ending? response
        (.ended ending.task ending.outcome ending.after) = none := if_neg same
    rw [if_neg same, List.filterMap_cons_none noEnding]

theorem endings_endTask (machine : Machine) (ending : Ending) (response : ResponseId) :
    (endTask ending.task ending.outcome ending.after machine).2.endings response =
      if ending.task.response = response then machine.endings response ++ [ending]
      else machine.endings response :=
  machine.endings_record_ended ending response

theorem arena_setArena (machine : Machine) (key asked : ArenaKey) (arena : Arena) :
    (machine.setArena key arena).arena asked = if key = asked then arena else machine.arena asked := by
  unfold Machine.arena setArena
  rw [Table.get?_insert]
  split
  · rfl
  · rfl

end Machine

namespace Machine

theorem response_contribute (machine : Machine) (id : ResponseId) (worker : ContextId)
    (outcome : WorkerOutcome) (result : RegisterFile) (asked : ResponseId) :
    (machine.contribute id worker outcome result).2.response asked =
      if asked = id ∧ id < machine.responses.size then
        ((machine.response id).contribute worker outcome result).1
      else machine.response asked := by
  unfold response contribute
  simp only [Array.getElem?_setIfInBounds]
  by_cases same : id = asked
  · subst same
    by_cases inBounds : id < machine.responses.size
    · simp [response, inBounds]
    · simp [inBounds]
  · have notSame : ¬ asked = id := fun isSame => same isSame.symm
    simp [same, notSame]

theorem size_responses_contribute (machine : Machine) (id : ResponseId) (worker : ContextId)
    (outcome : WorkerOutcome) (result : RegisterFile) :
    (machine.contribute id worker outcome result).2.responses.size = machine.responses.size :=
  Array.size_setIfInBounds

theorem response_openResponse (machine : Machine) (returns : Layout) (waits : Bool) (expected : Nat)
    (asked : ResponseId) :
    (machine.openResponse returns waits expected).2.response asked =
      if asked = machine.responses.size then Response.opening returns waits expected
      else machine.response asked := by
  unfold response openResponse
  by_cases isNew : asked = machine.responses.size
  · simp [isNew]
  · simp [Array.getElem?_push, isNew]

theorem size_responses_openResponse (machine : Machine) (returns : Layout) (waits : Bool)
    (expected : Nat) :
    (machine.openResponse returns waits expected).2.responses.size = machine.responses.size + 1 :=
  Array.size_push _

end Machine

/-! ## Changes of one context -/

/-- A change of an arena that touches no context but one. -/
structure Arena.AltersOnly (id : ContextId) (before after : Arena) : Prop where
  nextId : after.nextId = before.nextId
  others : ∀ other, other ≠ id → after.state? other = before.state? other

namespace Arena

variable {arena after : Arena} {id : ContextId}

theorem altersOnly_refl (id : ContextId) (arena : Arena) : arena.AltersOnly id arena :=
  ⟨rfl, fun _ _ => rfl⟩

theorem AltersOnly.trans {last : Arena} (first : arena.AltersOnly id after)
    (second : after.AltersOnly id last) : arena.AltersOnly id last :=
  ⟨second.nextId.trans first.nextId, fun other different =>
    (second.others other different).trans (first.others other different)⟩

theorem transition_altersOnly (arena : Arena) (id : ContextId) (next : ContextState) :
    arena.AltersOnly id (arena.transition id next).2 := by
  unfold transition
  split
  · exact altersOnly_refl id arena
  · split
    · refine ⟨rfl, fun other different => ?_⟩
      unfold state? record?
      rw [Table.get?_insert, if_neg (Ne.symm different)]
    · exact altersOnly_refl id arena

theorem state?_transition {state next : ContextState} (isState : arena.state? id = some state)
    (mayMove : state.canMoveTo next = true) :
    (arena.transition id next).1 = .ok state ∧
      (arena.transition id next).2.state? id = some next := by
  obtain ⟨record, found, rfl⟩ := Option.map_eq_some_iff.mp isState
  unfold transition
  rw [found]
  simp only [mayMove, if_true, true_and]
  unfold state? record?
  rw [Table.get?_insert_self]
  rfl

theorem resume_altersOnly (arena : Arena) (id : ContextId) :
    arena.AltersOnly id (arena.resume id) := by
  unfold resume
  split
  · exact transition_altersOnly arena id .running
  · exact altersOnly_refl id arena

theorem finish_altersOnly (arena : Arena) (id : ContextId) (last : ContextState) :
    arena.AltersOnly id (arena.finish id last) :=
  (resume_altersOnly arena id).trans (transition_altersOnly _ id last)

theorem beginWait_altersOnly (arena : Arena) (id : ContextId) :
    arena.AltersOnly id (arena.beginWait id).2 := by
  unfold beginWait
  split
  · exact altersOnly_refl id arena
  · exact transition_altersOnly arena id .waiting

theorem suspend_altersOnly (arena : Arena) (id : ContextId) :
    arena.AltersOnly id (arena.suspend id).2 := by
  unfold suspend
  split
  · exact altersOnly_refl id arena
  · exact altersOnly_refl id arena
  · exact beginWait_altersOnly arena id

theorem release_altersOnly (arena : Arena) (id : ContextId) :
    arena.AltersOnly id (arena.release id) := by
  refine ⟨rfl, fun other different => ?_⟩
  unfold state?
  rw [record?_release, if_neg (Ne.symm different)]

end Arena

namespace Machine

variable (machine : Machine) (key : ArenaKey) {id : ContextId} {change : Arena → Arena}

theorem stateIn?_alterArena_self :
    (machine.alterArena key change).stateIn? key id = (change (machine.arena key)).state? id := by
  unfold stateIn? alterArena
  rw [arena_setArena, if_pos rfl]

theorem nextId_alterArena (alters : ∀ arena : Arena, arena.AltersOnly id (change arena))
    (asked : ArenaKey) :
    ((machine.alterArena key change).arena asked).nextId = (machine.arena asked).nextId := by
  unfold alterArena
  rw [arena_setArena]
  split
  · next same =>
    rw [(alters _).nextId, same]
  · rfl

theorem stateIn?_alterArena_of_ne (alters : ∀ arena : Arena, arena.AltersOnly id (change arena))
    {asked : ArenaKey} {other : ContextId} (different : (asked, other) ≠ (key, id)) :
    (machine.alterArena key change).stateIn? asked other = machine.stateIn? asked other := by
  unfold stateIn? alterArena
  rw [arena_setArena]
  split
  · next same =>
    subst same
    exact (alters _).others other fun sameId => different (by rw [sameId])
  · rfl

theorem stateIn?_register (record : ContextRecord) (asked : ArenaKey) (id : ContextId) :
    (machine.alterArena key fun records => (records.register record).2).stateIn? asked id =
      if asked = key ∧ id = (machine.arena key).nextId then some record.state
      else machine.stateIn? asked id := by
  unfold stateIn? alterArena
  rw [arena_setArena]
  by_cases sameArena : key = asked
  · subst sameArena
    rw [if_pos rfl]
    unfold Arena.state?
    rw [Arena.record?_register]
    by_cases isNew : (machine.arena key).nextId = id
    · rw [if_pos isNew, if_pos ⟨rfl, isNew.symm⟩]
      rfl
    · rw [if_neg isNew, if_neg fun both => isNew both.2.symm]
  · rw [if_neg sameArena, if_neg fun both => sameArena both.1.symm]

theorem nextId_le_register (record : ContextRecord) (asked : ArenaKey) :
    (machine.arena asked).nextId ≤
      ((machine.alterArena key fun records => (records.register record).2).arena asked).nextId := by
  unfold alterArena
  rw [arena_setArena]
  split
  · next same =>
    subst same
    exact Nat.le_succ _
  · exact Nat.le_refl _

end Machine

/-! ## Sparing what belongs to others -/

/-- Contexts and responses that somebody has to do with. -/
structure Belongings where
  contexts : Set (ArenaKey × ContextId)
  responses : Set ResponseId

def Context.place (context : Context) : ArenaKey × ContextId :=
  (context.arena, context.id)

namespace Belongings

def none : Belongings := ⟨∅, ∅⟩

def ofContext (context : Context) : Belongings := ⟨{context.place}, ∅⟩

def ofTask (task : Task) : Belongings := ⟨{task.context.place}, {task.response}⟩

/-- What belongs to somebody has been made before, and its contexts are in certain arenas. -/
structure Within (arenas : Set ArenaKey) (own : Belongings) (machine : Machine) : Prop where
  contexts : ∀ arena id, (arena, id) ∈ own.contexts →
    arena ∈ arenas ∧ id < (machine.arena arena).nextId
  responses : ∀ response ∈ own.responses, response < machine.responses.size

theorem none_within (arenas : Set ArenaKey) (machine : Machine) : none.Within arenas machine :=
  ⟨fun _ _ never => never.elim, fun _ never => never.elim⟩

def union (own more : Belongings) : Belongings :=
  ⟨own.contexts ∪ more.contexts, own.responses ∪ more.responses⟩

/-- Who owns a context owns nothing new along with it. -/
theorem ofContext_union {own : Belongings} {context : Context}
    (mine : context.place ∈ own.contexts) : (ofContext context).union own = own := by
  unfold union ofContext
  rw [Set.empty_union, Set.singleton_union, Set.insert_eq_of_mem mine]

theorem Within.of_grown {arenas : Set ArenaKey} {own : Belongings} {machine later : Machine}
    (within : own.Within arenas machine)
    (nextIds : ∀ arena, (machine.arena arena).nextId ≤ (later.arena arena).nextId)
    (opened : machine.responses.size ≤ later.responses.size) : own.Within arenas later where
  contexts := by
    intro arena id member
    obtain ⟨inArenas, older⟩ := within.contexts arena id member
    exact ⟨inArenas, Nat.lt_of_lt_of_le older (nextIds arena)⟩
  responses := fun response member =>
    Nat.lt_of_lt_of_le (within.responses response member) opened

end Belongings

/-- A change of a machine, made by somebody to whom `own` belongs before and `grown` afterwards,
which spares everything that belongs to others. -/
structure Spares (arenas : Set ArenaKey) (own grown : Belongings) (machine later : Machine) :
    Prop where
  within : grown.Within arenas later
  keepsContexts : own.contexts ⊆ grown.contexts
  keepsResponses : own.responses ⊆ grown.responses
  states : ∀ arena id, id < (machine.arena arena).nextId → (arena, id) ∉ own.contexts →
    later.stateIn? arena id = machine.stateIn? arena id
  nextIds : ∀ arena, (machine.arena arena).nextId ≤ (later.arena arena).nextId
  opened : machine.responses.size ≤ later.responses.size
  responses : ∀ response < machine.responses.size, response ∉ own.responses →
    later.response response = machine.response response
  starts : ∀ response < machine.responses.size, response ∉ own.responses →
    later.starts response = machine.starts response
  endings : ∀ response < machine.responses.size, response ∉ own.responses →
    later.endings response = machine.endings response
  waiting : ∀ response < machine.responses.size, response ∉ own.responses →
    later.waiting response = machine.waiting response
  /-- Tasks are handed to threads only with a context and a response of one's own. -/
  handed : ∀ task ∈ later.spawned, task ∈ machine.spawned ∨
    task.context.place ∈ grown.contexts ∧ task.response ∈ grown.responses
  newContexts : ∀ arena id, (arena, id) ∈ grown.contexts →
    (arena, id) ∈ own.contexts ∨ (machine.arena arena).nextId ≤ id
  newResponses : ∀ response ∈ grown.responses,
    response ∈ own.responses ∨ machine.responses.size ≤ response

namespace Spares

variable {arenas : Set ArenaKey} {own : Belongings} {machine later : Machine}

/-- Who touches only one context of his own spares everything else. -/
theorem of_context {place : ArenaKey × ContextId} {change : Arena → Arena}
    (within : own.Within arenas machine) (mine : place ∈ own.contexts)
    (alters : ∀ arena : Arena, arena.AltersOnly place.2 (change arena)) :
    Spares arenas own own machine (machine.alterArena place.1 change) where
  within := within.of_grown (fun arena => (machine.nextId_alterArena _ alters arena).ge) (le_refl _)
  keepsContexts := subset_rfl
  keepsResponses := subset_rfl
  states := by
    intro arena id _ notMine
    refine machine.stateIn?_alterArena_of_ne _ alters fun same => notMine ?_
    rw [same]
    exact mine
  nextIds := fun arena => (machine.nextId_alterArena _ alters arena).ge
  opened := le_refl _
  responses := fun _ _ _ => rfl
  starts := fun _ _ _ => rfl
  endings := fun _ _ _ => rfl
  waiting := fun _ _ _ => rfl
  handed := fun _ member => .inl member
  newContexts := fun _ _ member => .inl member
  newResponses := fun _ member => .inl member

/-- Who changes nothing that can belong to somebody spares everything. -/
theorem of_same (within : own.Within arenas machine) (sameArenas : later.arenas = machine.arenas)
    (sameResponses : later.responses = machine.responses)
    (sameHistory : later.history = machine.history)
    (sameSpawned : later.spawned = machine.spawned) : Spares arenas own own machine later := by
  have sameArena : later.arena = machine.arena := by
    funext arena
    unfold Machine.arena
    rw [sameArenas]
  exact
    { within := within.of_grown (fun arena => by rw [sameArena]) (by rw [sameResponses])
      keepsContexts := subset_rfl
      keepsResponses := subset_rfl
      states := fun arena id _ _ => by
        unfold Machine.stateIn?
        rw [sameArena]
      nextIds := fun arena => by
        rw [sameArena]
      opened := by
        rw [sameResponses]
      responses := fun response _ _ => by
        unfold Machine.response
        rw [sameResponses]
      starts := fun response _ _ => by
        unfold Machine.starts
        rw [sameHistory]
      endings := fun response _ _ => by
        unfold Machine.endings
        rw [sameHistory]
      waiting := fun response _ _ => by
        unfold Machine.waiting
        rw [sameSpawned]
      handed := fun task member => .inl (by
        rw [← sameSpawned]
        exact member)
      newContexts := fun _ _ member => .inl member
      newResponses := fun _ member => .inl member }

/-- Handing a contribution to a response of one's own spares everything else. -/
theorem of_contribution {response : ResponseId} (within : own.Within arenas machine)
    (responds : response ∈ own.responses) (worker : ContextId) (outcome : WorkerOutcome)
    (result : RegisterFile) :
    Spares arenas own own machine (machine.contribute response worker outcome result).2 where
  within := within.of_grown (fun _ => le_refl _)
    (machine.size_responses_contribute response worker outcome result).ge
  keepsContexts := subset_rfl
  keepsResponses := subset_rfl
  states := fun _ _ _ _ => rfl
  nextIds := fun _ => le_refl _
  opened := (machine.size_responses_contribute response worker outcome result).ge
  responses := by
    intro other _ notMine
    rw [machine.response_contribute, if_neg]
    rintro ⟨rfl, _⟩
    exact notMine responds
  starts := fun _ _ _ => rfl
  endings := fun _ _ _ => rfl
  waiting := fun _ _ _ => rfl
  handed := fun _ member => .inl member
  newContexts := fun _ _ member => .inl member
  newResponses := fun _ member => .inl member

/-- Recording what happens to one's own tasks spares everything. -/
theorem of_record {happening : Happening} (within : own.Within arenas machine)
    (mine : ∀ response, response ∉ own.responses →
      happening.start? response = none ∧ happening.ending? response = none) :
    Spares arenas own own machine (machine.record happening) where
  within := within.of_grown (fun _ => le_refl _) (le_refl _)
  keepsContexts := subset_rfl
  keepsResponses := subset_rfl
  states := fun _ _ _ _ => rfl
  nextIds := fun _ => le_refl _
  opened := le_refl _
  responses := fun _ _ _ => rfl
  starts := by
    intro response _ notMine
    unfold Machine.starts Machine.record
    rw [List.filterMap_cons_none (mine response notMine).1]
  endings := by
    intro response _ notMine
    unfold Machine.endings Machine.record
    rw [List.filterMap_cons_none (mine response notMine).2]
  waiting := fun _ _ _ => rfl
  handed := fun _ member => .inl member
  newContexts := fun _ _ member => .inl member
  newResponses := fun _ member => .inl member

theorem trans {grown more : Belongings} {last : Machine}
    (first : Spares arenas own grown machine later)
    (second : Spares arenas grown more later last) : Spares arenas own more machine last where
  within := second.within
  keepsContexts := first.keepsContexts.trans second.keepsContexts
  keepsResponses := first.keepsResponses.trans second.keepsResponses
  states := by
    intro arena id older notMine
    have notGrown : (arena, id) ∉ grown.contexts := fun member =>
      (first.newContexts arena id member).elim notMine (Nat.not_le.mpr older)
    rw [second.states arena id (Nat.lt_of_lt_of_le older (first.nextIds arena)) notGrown]
    exact first.states arena id older notMine
  nextIds := fun arena => Nat.le_trans (first.nextIds arena) (second.nextIds arena)
  opened := Nat.le_trans first.opened second.opened
  responses := by
    intro response older notMine
    have notGrown : response ∉ grown.responses := fun member =>
      (first.newResponses response member).elim notMine (Nat.not_le.mpr older)
    rw [second.responses response (Nat.lt_of_lt_of_le older first.opened) notGrown]
    exact first.responses response older notMine
  starts := by
    intro response older notMine
    have notGrown : response ∉ grown.responses := fun member =>
      (first.newResponses response member).elim notMine (Nat.not_le.mpr older)
    rw [second.starts response (Nat.lt_of_lt_of_le older first.opened) notGrown]
    exact first.starts response older notMine
  endings := by
    intro response older notMine
    have notGrown : response ∉ grown.responses := fun member =>
      (first.newResponses response member).elim notMine (Nat.not_le.mpr older)
    rw [second.endings response (Nat.lt_of_lt_of_le older first.opened) notGrown]
    exact first.endings response older notMine
  waiting := by
    intro response older notMine
    have notGrown : response ∉ grown.responses := fun member =>
      (first.newResponses response member).elim notMine (Nat.not_le.mpr older)
    rw [second.waiting response (Nat.lt_of_lt_of_le older first.opened) notGrown]
    exact first.waiting response older notMine
  handed := by
    intro task member
    rcases second.handed task member with wasSpawned | isMine
    · rcases first.handed task wasSpawned with wasThere | ⟨ownContext, ownResponse⟩
      · exact .inl wasThere
      · exact .inr ⟨second.keepsContexts ownContext, second.keepsResponses ownResponse⟩
    · exact .inr isMine
  newContexts := by
    intro arena id member
    rcases second.newContexts arena id member with wasGrown | isNew
    · exact first.newContexts arena id wasGrown
    · exact .inr (Nat.le_trans (first.nextIds arena) isNew)
  newResponses := by
    intro response member
    rcases second.newResponses response member with wasGrown | isNew
    · exact first.newResponses response wasGrown
    · exact .inr (Nat.le_trans first.opened isNew)

variable {task : Task}

/-- To begin with a task of one's own spares everything else. -/
theorem of_startTask (within : own.Within arenas machine)
    (mine : task.context.place ∈ own.contexts) (responds : task.response ∈ own.responses) :
    Spares arenas own own machine (Machine.startTask task machine).2 := by
  have moved : Spares arenas own own machine (machine.alterArena task.context.arena fun records =>
      (records.transition task.context.id .running).2) :=
    of_context within mine fun records => records.transition_altersOnly _ _
  unfold Machine.startTask
  split
  · next _ after begins =>
    have isMoved : (machine.alterArena task.context.arena fun records =>
        (records.transition task.context.id .running).2) = after :=
      congrArg Prod.snd begins
    rw [isMoved] at moved
    refine moved.trans (of_record moved.within fun response notMine => ⟨?_, rfl⟩)
    refine if_neg ?_
    rintro rfl
    exact notMine responds
  · next _ after refused =>
    have isMoved : (machine.alterArena task.context.arena fun records =>
        (records.transition task.context.id .running).2) = after :=
      congrArg Prod.snd refused
    rw [isMoved] at moved
    exact moved

/-- To hand in the ending of a task of one's own spares everything else. -/
theorem of_endTask (within : own.Within arenas machine) (responds : task.response ∈ own.responses)
    (outcome : Except Interruption WorkerExit) (after : Context) :
    Spares arenas own own machine (Machine.endTask task outcome after machine).2 := by
  have recorded : Spares arenas own own machine (machine.record (.ended task outcome after)) := by
    refine of_record within fun response notMine => ⟨rfl, if_neg ?_⟩
    rintro rfl
    exact notMine responds
  exact recorded.trans (of_contribution recorded.within responds _ _ _)

end Spares

/-- A process minds its own business: each of its steps spares what belongs to others, whatever they
have done before, and at its end the answer and everything that belongs to it reach a goal. -/
def Process.Minds (arenas : Set ArenaKey) {Answer : Type} :
    Process Machine Answer → Belongings → (Answer → Belongings → Prop) → Prop
  | done answer, own, goal => goal answer own
  | step ready update next, own, goal =>
    ∀ machine, own.Within arenas machine → ready machine = true →
      ∃ grown, Spares arenas own grown machine (update machine) ∧
        (next machine).Minds arenas grown goal
  | sleep _ next, own, goal => next.Minds arenas own goal

/-- Whoever spares what belongs to others also does so if more belongs to him. -/
theorem Spares.frame {arenas : Set ArenaKey} {own grown more : Belongings}
    {machine later : Machine} (spares : Spares arenas own grown machine later)
    (moreWithin : more.Within arenas machine) :
    Spares arenas (own.union more) (grown.union more) machine later where
  within := by
    have moreLater := moreWithin.of_grown spares.nextIds spares.opened
    refine ⟨?_, ?_⟩
    · rintro arena id (inGrown | inMore)
      · exact spares.within.contexts arena id inGrown
      · exact moreLater.contexts arena id inMore
    · rintro response (inGrown | inMore)
      · exact spares.within.responses response inGrown
      · exact moreLater.responses response inMore
  keepsContexts := Set.union_subset_union_left _ spares.keepsContexts
  keepsResponses := Set.union_subset_union_left _ spares.keepsResponses
  states := fun arena id older notMine =>
    spares.states arena id older fun member => notMine (.inl member)
  nextIds := spares.nextIds
  opened := spares.opened
  responses := fun response older notMine =>
    spares.responses response older fun member => notMine (.inl member)
  starts := fun response older notMine =>
    spares.starts response older fun member => notMine (.inl member)
  endings := fun response older notMine =>
    spares.endings response older fun member => notMine (.inl member)
  waiting := fun response older notMine =>
    spares.waiting response older fun member => notMine (.inl member)
  handed := by
    intro task member
    rcases spares.handed task member with wasThere | ⟨ownContext, ownResponse⟩
    · exact .inl wasThere
    · exact .inr ⟨.inl ownContext, .inl ownResponse⟩
  newContexts := by
    rintro arena id (inGrown | inMore)
    · rcases spares.newContexts arena id inGrown with wasMine | isNew
      · exact .inl (.inl wasMine)
      · exact .inr isNew
    · exact .inl (.inr inMore)
  newResponses := by
    rintro response (inGrown | inMore)
    · rcases spares.newResponses response inGrown with wasMine | isNew
      · exact .inl (.inl wasMine)
      · exact .inr isNew
    · exact .inl (.inr inMore)

/-- Whoever minds his own business also does so if more belongs to him. -/
theorem Process.Minds.frame {arenas : Set ArenaKey} {Answer : Type}
    {process : Process Machine Answer} {own more : Belongings} {goal : Answer → Prop}
    (minds : process.Minds arenas own fun answer _ => goal answer) :
    process.Minds arenas (own.union more) fun answer _ => goal answer := by
  induction process generalizing own with
  | done answer =>
      exact minds
  | step ready update next inductionHypothesis =>
      intro machine within isReady
      have ownWithin : own.Within arenas machine :=
        ⟨fun arena id member => within.contexts arena id (.inl member),
          fun response member => within.responses response (.inl member)⟩
      have moreWithin : more.Within arenas machine :=
        ⟨fun arena id member => within.contexts arena id (.inr member),
          fun response member => within.responses response (.inr member)⟩
      obtain ⟨grown, spares, rest⟩ := minds machine ownWithin isReady
      exact ⟨grown.union more, spares.frame moreWithin, inductionHypothesis machine rest⟩
  | sleep milliseconds next inductionHypothesis =>
      exact inductionHypothesis minds

/-- What a body leaves of its context: the same context, with result registers of the same sizes. -/
structure Context.LeftAs (context after : Context) : Prop where
  id : after.id = context.id
  arena : after.arena = context.arena
  activity : after.activity = context.activity
  sized : after.results.sizes = context.results.sizes

theorem Context.LeftAs.place {context after : Context} (left : context.LeftAs after) :
    after.place = context.place := by
  unfold Context.place
  rw [left.id, left.arena]

/-- All bodies mind their own business: they move no context but their own and those that they make,
all of them in certain arenas, and they keep the sizes of their result registers. -/
def Interpreter.Discreet (interpreter : Interpreter) (arenas : Set ArenaKey) : Prop :=
  ∀ station context, context.arena ∈ arenas →
    ((interpreter station).runOn context).Minds arenas (.ofContext context) fun answer _ =>
      context.LeftAs answer.2

end WorkerMachine
