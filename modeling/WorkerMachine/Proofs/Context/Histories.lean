import WorkerMachine.Machine.Invocation
import WorkerMachine.Proofs.Context.Lineage
/-!
# Histories of an arena

An arena is used by opening contexts, by moving them and by releasing them.  Whatever is asked of
it, in whatever order, a context keeps its name for itself, has a parent with a smaller name, and
lives along the edges of its life; so every climb through its ancestors ends.
-/

namespace WorkerMachine

inductive ArenaOperation where
  | openRoot
  | openChild (parent : ContextId)
  | openWorker (parent : ContextId) (label : String)
  | move (id : ContextId) (next : ContextState)
  | release (id : ContextId)
  deriving DecidableEq, Repr

def ArenaOperation.opens? : ArenaOperation → Option ContextRecord
  | openRoot => some ⟨none, .running, Arena.rootLabel⟩
  | openChild parent => some ⟨some parent, .running, Arena.rootLabel⟩
  | openWorker parent label => some ⟨some parent, .created, label⟩
  | move _ _ | release _ => none

def ContextState.edges : List (ContextState × ContextState) :=
  [(.created, .runnable), (.runnable, .running), (.running, .waiting), (.waiting, .running),
    (.running, .completed), (.running, .failed)]

theorem ContextState.canMoveTo_iff (old new : ContextState) :
    old.canMoveTo new = true ↔ (old, new) ∈ edges := by
  cases old <;> cases new <;> decide

/-- From one moment to the next a context keeps its state or moves along an edge. -/
def ContextState.Becomes (old new : ContextState) : Prop :=
  new = old ∨ (old, new) ∈ edges

namespace Arena

def perform (arena : Arena) : ArenaOperation → Arena
  | .openRoot => (arena.register ⟨none, .running, rootLabel⟩).2
  | .openChild parent => (arena.register ⟨some parent, .running, rootLabel⟩).2
  | .openWorker parent label => (arena.register ⟨some parent, .created, label⟩).2
  | .move id next => (arena.transition id next).2
  | .release id => arena.release id

def performAll (arena : Arena) (operations : List ArenaOperation) : Arena :=
  operations.foldl perform arena

def moments (arena : Arena) : List ArenaOperation → List Arena
  | [] => [arena]
  | operation :: rest => arena :: (arena.perform operation).moments rest

def openings (arena : Arena) : List ArenaOperation → List (ContextId × ContextRecord)
  | [] => []
  | operation :: rest =>
    (operation.opens?.map fun record => (arena.nextId, record)).toList ++
      (arena.perform operation).openings rest

/-- The states of a context at the moments at which it is live. -/
def statesDuring (arena : Arena) (operations : List ArenaOperation) (id : ContextId) :
    List ContextState :=
  (arena.moments operations).filterMap (·.state? id)

/-- The arena has given a name out, whether or not the context is still live. -/
def HasNamed (arena : Arena) (id : ContextId) : Prop :=
  0 < id ∧ id < arena.nextId

/-- Contexts are only opened below contexts that were opened before. -/
def Admits (arena : Arena) : List ArenaOperation → Prop
  | [] => True
  | operation :: rest =>
    (∀ record ∈ operation.opens?, ∀ parent ∈ record.parent, arena.HasNamed parent) ∧
      (arena.perform operation).Admits rest

variable {arena : Arena} {id : ContextId} {operation : ArenaOperation}
  {operations : List ArenaOperation}

/-! ## The machine uses arenas in these ways -/

theorem openRoot_eq (key : ArenaKey) (properties : PropertiesKey) :
    WorkerMachine.openRoot key properties =
      (Effect.atomically (Machine.inArena key fun arena =>
        (arena.nextId, arena.perform .openRoot)) >>= fun id =>
          pure (.root id none key properties)) :=
  rfl

theorem openChild_eq (parent : Context) :
    parent.openChild =
      (Effect.atomically (Machine.inArena parent.arena fun arena =>
        (arena.nextId, arena.perform (.openChild parent.id))) >>= fun id =>
          pure (.root id (some parent.id) parent.arena parent.properties)) :=
  rfl

theorem registerContext_worker (key : ArenaKey) (parent : ContextId) (label : String) :
    registerContext key ⟨some parent, .created, label⟩ =
      Effect.atomically (Machine.inArena key fun arena =>
        (arena.nextId, arena.perform (.openWorker parent label))) :=
  rfl

theorem moveContext_eq (key : ArenaKey) (id : ContextId) (next : ContextState) :
    moveContext key id next =
      Effect.atomically (Machine.inArena key fun arena =>
        ((arena.transition id next).1, arena.perform (.move id next))) :=
  rfl

theorem release_eq (context : Context) :
    context.release =
      Process.modify (Machine.alterArena context.arena fun arena =>
        arena.perform (.release context.id)) :=
  rfl

/-- Waiting for a response is at most one move. -/
theorem exists_performAll_beginWait (arena : Arena) (id : ContextId) :
    ∃ moves, (∀ move ∈ moves, move = .move id .waiting) ∧
      (arena.beginWait id).2 = arena.performAll moves := by
  by_cases waits : arena.state? id = some .waiting
  · exact ⟨[], by simp, by simp [beginWait, waits, performAll]⟩
  · exact ⟨[.move id .waiting], by simp, by simp [beginWait, waits, performAll, perform]⟩

/-- The end of a context is at most two moves. -/
theorem exists_performAll_finish (arena : Arena) (id : ContextId) (last : ContextState) :
    ∃ moves, (∀ move ∈ moves, ∃ next, move = .move id next) ∧
      arena.finish id last = arena.performAll moves := by
  by_cases waits : arena.state? id = some .waiting
  · exact ⟨[.move id .running, .move id last], by simp,
      by simp [finish, resume, waits, performAll, perform]⟩
  · exact ⟨[.move id last], by simp, by simp [finish, resume, waits, performAll, perform]⟩

/-! ## One operation -/

theorem nextId_transition (arena : Arena) (id : ContextId) (next : ContextState) :
    (arena.transition id next).2.nextId = arena.nextId := by
  unfold transition
  split
  · rfl
  · split <;> rfl

theorem nextId_perform (arena : Arena) (operation : ArenaOperation) :
    (arena.perform operation).nextId =
      if operation.opens?.isSome then arena.nextId + 1 else arena.nextId := by
  cases operation with
  | move id next => exact arena.nextId_transition id next
  | release id => rfl
  | openRoot => rfl
  | openChild parent => rfl
  | openWorker parent label => rfl

theorem nextId_le_perform (arena : Arena) (operation : ArenaOperation) :
    arena.nextId ≤ (arena.perform operation).nextId := by
  rw [nextId_perform]
  split
  · exact Nat.le_succ _
  · exact Nat.le_refl _

theorem perform_of_opens? {record : ContextRecord} (opens : operation.opens? = some record) :
    arena.perform operation = (arena.register record).2 := by
  cases operation <;> simp_all [ArenaOperation.opens?, perform]

/-- A move leaves a record as it is, or takes its state along an edge. -/
theorem record?_transition_cases {target : ContextId} {next : ContextState} {new : ContextRecord}
    (after : (arena.transition target next).2.record? id = some new) :
    ∃ old, arena.record? id = some old ∧ new.parent = old.parent ∧ new.label = old.label ∧
      old.state.Becomes new.state := by
  unfold transition at after
  split at after
  · exact ⟨new, after, rfl, rfl, .inl rfl⟩
  · next record found =>
    split at after
    · next allowed =>
      rw [record?, Table.get?_insert] at after
      split at after
      · next same =>
        subst same
        cases after
        have edge := (ContextState.canMoveTo_iff record.state next).mp allowed
        exact ⟨record, found, rfl, rfl, .inr edge⟩
      · exact ⟨new, after, rfl, rfl, .inl rfl⟩
    · exact ⟨new, after, rfl, rfl, .inl rfl⟩

/-- After an operation a record is the one that the operation opens under the next name, or it was
there before and its state is the same or one edge further. -/
theorem record?_perform_cases {new : ContextRecord}
    (after : (arena.perform operation).record? id = some new) :
    (id = arena.nextId ∧ operation.opens? = some new) ∨
      ∃ old, arena.record? id = some old ∧ new.parent = old.parent ∧ new.label = old.label ∧
        old.state.Becomes new.state := by
  cases opens : operation.opens? with
  | some record =>
    rw [perform_of_opens? opens, record?_register] at after
    split at after
    · next same =>
      left
      exact ⟨same.symm, after⟩
    · right
      exact ⟨new, after, rfl, rfl, .inl rfl⟩
  | none =>
    right
    cases operation with
    | move target next => exact record?_transition_cases after
    | release target =>
      rw [perform, record?_release] at after
      split at after
      · cases after
      · exact ⟨new, after, rfl, rfl, .inl rfl⟩
    | openRoot => cases opens
    | openChild parent => cases opens
    | openWorker parent label => cases opens

theorem HasNamed.perform (named : arena.HasNamed id) (operation : ArenaOperation) :
    (arena.perform operation).HasNamed id :=
  ⟨named.1, Nat.lt_of_lt_of_le named.2 (arena.nextId_le_perform operation)⟩

/-- A context that is gone does not come back. -/
theorem HasNamed.record?_perform (named : arena.HasNamed id) (absent : arena.record? id = none)
    (operation : ArenaOperation) : (arena.perform operation).record? id = none := by
  apply Option.eq_none_iff_forall_ne_some.mpr
  intro new after
  obtain ⟨same, _⟩ | ⟨old, found, _⟩ := record?_perform_cases after
  · exact absurd same (Nat.ne_of_lt named.2)
  · simp [absent] at found

theorem ParentsFirst.perform (ordered : arena.ParentsFirst) (positive : 0 < arena.nextId)
    (below : ∀ record ∈ operation.opens?, ∀ parent ∈ record.parent, arena.HasNamed parent) :
    (arena.perform operation).ParentsFirst := by
  constructor
  · intro id new after
    obtain ⟨rfl, opens⟩ | ⟨old, found, _⟩ := record?_perform_cases after
    · rw [nextId_perform, opens]
      exact ⟨positive, Nat.lt_succ_self _⟩
    · exact HasNamed.perform (ordered.named found) operation
  · intro id new parent after ofParent
    obtain ⟨rfl, opens⟩ | ⟨old, found, sameParent, _⟩ := record?_perform_cases after
    · exact (below new opens parent ofParent).2
    · exact ordered.older found (sameParent.symm.trans ofParent)

/-! ## Many operations -/

theorem ParentsFirst.moments (ordered : arena.ParentsFirst) (positive : 0 < arena.nextId)
    (admitted : arena.Admits operations) :
    ∀ moment ∈ arena.moments operations, moment.ParentsFirst := by
  induction operations generalizing arena with
  | nil => simpa [Arena.moments] using ordered
  | cons operation rest inductionHypothesis =>
    obtain ⟨below, admittedRest⟩ := admitted
    have orderedNext := ordered.perform positive below
    have positiveNext := Nat.lt_of_lt_of_le positive (arena.nextId_le_perform operation)
    intro moment member
    cases member with
    | head => exact ordered
    | tail _ later => exact inductionHypothesis orderedNext positiveNext admittedRest moment later

/-- Names that are given out later are larger. -/
theorem nextId_le_of_mem_openings {opening : ContextId × ContextRecord}
    (member : opening ∈ arena.openings operations) : arena.nextId ≤ opening.1 := by
  induction operations generalizing arena with
  | nil => cases member
  | cons operation rest inductionHypothesis =>
    obtain here | later := List.mem_append.mp member
    · obtain ⟨record, _, rfl⟩ := Option.map_eq_some_iff.mp (Option.mem_toList.mp here)
      exact Nat.le_refl _
    · exact Nat.le_trans (arena.nextId_le_perform operation) (inductionHypothesis later)

theorem pairwise_openings (arena : Arena) (operations : List ArenaOperation) :
    ((arena.openings operations).map Prod.fst).Pairwise (· < ·) := by
  induction operations generalizing arena with
  | nil => simp [openings]
  | cons operation rest inductionHypothesis =>
    cases opens : operation.opens? with
    | none => simpa [openings, opens] using inductionHypothesis (arena.perform operation)
    | some record =>
      have nextName : (arena.perform operation).nextId = arena.nextId + 1 := by
        simp [nextId_perform, opens]
      simp only [openings, opens, Option.map_some, Option.toList_some, List.singleton_append,
        List.map_cons, List.pairwise_cons]
      constructor
      · intro later member
        obtain ⟨opening, isLater, rfl⟩ := List.mem_map.mp member
        apply Nat.lt_of_succ_le
        rw [Nat.succ_eq_add_one, ← nextName]
        exact nextId_le_of_mem_openings isLater
      · exact inductionHypothesis (arena.perform operation)

theorem hasNamed_performAll_iff (arena : Arena) (positive : 0 < arena.nextId)
    (operations : List ArenaOperation) (id : ContextId) :
    (arena.performAll operations).HasNamed id ↔
      arena.HasNamed id ∨ id ∈ (arena.openings operations).map Prod.fst := by
  induction operations generalizing arena with
  | nil => simp [performAll, openings]
  | cons operation rest inductionHypothesis =>
    have positiveNext := Nat.lt_of_lt_of_le positive (arena.nextId_le_perform operation)
    have named : (arena.perform operation).HasNamed id ↔
        arena.HasNamed id ∨ operation.opens?.isSome ∧ id = arena.nextId := by
      rw [HasNamed, HasNamed, nextId_perform]
      split
      · next opens =>
        simp only [opens, true_and, Nat.lt_succ_iff_lt_or_eq]
        constructor
        · rintro ⟨above, below | rfl⟩
          · exact .inl ⟨above, below⟩
          · exact .inr rfl
        · rintro (⟨above, below⟩ | rfl)
          · exact ⟨above, .inl below⟩
          · exact ⟨positive, .inr rfl⟩
      · next opens => simp [opens]
    have here : id ∈ ((operation.opens?.map fun record =>
          (arena.nextId, record)).toList).map Prod.fst ↔
        operation.opens?.isSome ∧ id = arena.nextId := by
      cases operation.opens? <;> simp
    calc ((arena.perform operation).performAll rest).HasNamed id
      _ ↔ (arena.perform operation).HasNamed id ∨
          id ∈ ((arena.perform operation).openings rest).map Prod.fst :=
        inductionHypothesis _ positiveNext
      _ ↔ arena.HasNamed id ∨ id ∈ (arena.openings (operation :: rest)).map Prod.fst := by
        rw [named, openings, List.map_append, List.mem_append, here, or_assoc]

theorem statesDuring_nil (arena : Arena) (id : ContextId) :
    arena.statesDuring [] id = (arena.state? id).toList := by
  cases isState : arena.state? id <;> simp [statesDuring, moments, isState]

theorem statesDuring_cons (arena : Arena) (operation : ArenaOperation)
    (rest : List ArenaOperation) (id : ContextId) :
    arena.statesDuring (operation :: rest) id =
      (arena.state? id).toList ++ (arena.perform operation).statesDuring rest id := by
  cases isState : arena.state? id <;> simp [statesDuring, moments, isState]

theorem HasNamed.statesDuring_of_gone (named : arena.HasNamed id)
    (absent : arena.record? id = none) (operations : List ArenaOperation) :
    arena.statesDuring operations id = [] := by
  induction operations generalizing arena with
  | nil => simp [statesDuring_nil, state?, absent]
  | cons operation rest inductionHypothesis =>
    have absentNext := named.record?_perform absent operation
    simp [statesDuring_cons, state?, absent,
      inductionHypothesis (named.perform operation) absentNext]

theorem HasNamed.statesDuring_of_live {record : ContextRecord} (named : arena.HasNamed id)
    (found : arena.record? id = some record) (operations : List ArenaOperation) :
    ∃ later, arena.statesDuring operations id = record.state :: later ∧
      (record.state :: later).IsChain ContextState.Becomes := by
  have isState : arena.state? id = some record.state := by simp [state?, found]
  induction operations generalizing arena record with
  | nil => exact ⟨[], by simp [statesDuring_nil, isState], .singleton _⟩
  | cons operation rest inductionHypothesis =>
    have namedNext := named.perform operation
    rw [statesDuring_cons, isState]
    cases foundNext : (arena.perform operation).record? id with
    | none => exact ⟨[], by simp [namedNext.statesDuring_of_gone foundNext], .singleton _⟩
    | some new =>
      obtain ⟨same, _⟩ | ⟨old, wasOld, _, _, becomes⟩ := record?_perform_cases foundNext
      · exact absurd same (Nat.ne_of_lt named.2)
      · obtain ⟨later, states, chain⟩ :=
          inductionHypothesis namedNext foundNext (by simp [state?, foundNext])
        have sameOld := Option.some.inj (found.symm.trans wasOld)
        subst sameOld
        exact ⟨new.state :: later, by simp [states], chain.cons_cons becomes⟩

theorem statesDuring_of_opening {record : ContextRecord} (ordered : arena.ParentsFirst)
    (positive : 0 < arena.nextId) (admitted : arena.Admits operations)
    (opened : (id, record) ∈ arena.openings operations) :
    ∃ later, arena.statesDuring operations id = record.state :: later ∧
      (record.state :: later).IsChain ContextState.Becomes := by
  induction operations generalizing arena with
  | nil => cases opened
  | cons operation rest inductionHypothesis =>
    obtain ⟨below, admittedRest⟩ := admitted
    have orderedNext := ordered.perform positive below
    have positiveNext := Nat.lt_of_lt_of_le positive (arena.nextId_le_perform operation)
    have unnamed : arena.state? id = none := by
      apply Option.map_eq_none_iff.mpr
      apply Option.eq_none_iff_forall_ne_some.mpr
      intro held found
      have notBelow := nextId_le_of_mem_openings opened
      exact Nat.not_lt_of_le notBelow (ordered.named found).2
    simp only [statesDuring_cons, unnamed, Option.toList_none, List.nil_append]
    obtain here | later := List.mem_append.mp opened
    · obtain ⟨record, opens, isOpening⟩ := Option.map_eq_some_iff.mp (Option.mem_toList.mp here)
      cases isOpening
      have found : (arena.perform operation).record? arena.nextId = some record := by
        rw [perform_of_opens? opens, record?_register, if_pos rfl]
      exact HasNamed.statesDuring_of_live (orderedNext.named found) found rest
    · exact inductionHypothesis orderedNext positiveNext admittedRest later

end Arena

theorem ContextState.Becomes.of_isTerminal {old new : ContextState} (becomes : old.Becomes new)
    (ended : old.isTerminal = true) : new = old := by
  obtain same | edge := becomes
  · exact same
  · have mayMove := (canMoveTo_iff old new).mpr edge
    rw [canMoveTo_eq_false_of_isTerminal new ended] at mayMove
    cases mayMove

/-- Along the edges nothing comes after a terminal state. -/
theorem ContextState.pairwise_of_isChain {states : List ContextState}
    (chain : states.IsChain ContextState.Becomes) :
    states.Pairwise fun old new => old.isTerminal = true → new = old := by
  have trans : Trans (fun old new : ContextState => old.isTerminal = true → new = old)
      (fun old new => old.isTerminal = true → new = old)
      (fun old new => old.isTerminal = true → new = old) := by
    constructor
    intro first second third toSecond toThird ended
    have sameSecond := toSecond ended
    subst sameSecond
    exact toThird ended
  apply List.isChain_iff_pairwise.mp
  exact chain.imp fun _ _ becomes => becomes.of_isTerminal

namespace Arena

/-- A refused move tells the state of the context and changes nothing. -/
theorem transition_refused {arena : Arena} {id : ContextId} {next : ContextState} {fault : Fault}
    (refused : (arena.transition id next).1 = .error fault) :
    fault = .invalidTransition id (arena.state? id) next ∧
      (arena.transition id next).2 = arena := by
  cases found : arena.record? id with
  | none =>
    simp only [transition, found, Except.error.injEq] at refused
    simp [transition, state?, found, refused.symm]
  | some record =>
    cases mayMove : record.state.canMoveTo next with
    | true => simp [transition, found, mayMove] at refused
    | false =>
      simp only [transition, found, mayMove, Bool.false_eq_true, if_false,
        Except.error.injEq] at refused
      simp [transition, state?, found, mayMove, refused.symm]

theorem parentsFirst_empty : ({} : Arena).ParentsFirst := by
  constructor
  · intro id record found
    cases found
  · intro id record parent found
    cases found

theorem performAll_append (arena : Arena) (before after : List ArenaOperation) :
    arena.performAll (before ++ after) = (arena.performAll before).performAll after := by
  simp [performAll]

/-- A context that is gone does not come back, whatever is done. -/
theorem HasNamed.record?_performAll {arena : Arena} {id : ContextId} (named : arena.HasNamed id)
    (absent : arena.record? id = none) (operations : List ArenaOperation) :
    (arena.performAll operations).record? id = none := by
  induction operations generalizing arena with
  | nil => exact absent
  | cons operation rest inductionHypothesis =>
    exact inductionHypothesis (named.perform operation) (named.record?_perform absent operation)

/-- What holds of an arena throughout a history, from the fresh arena on. -/
structure HistoryKept (operations : List ArenaOperation) : Prop where
  /-- No name is given out twice. -/
  fresh : ((({} : Arena).openings operations).map Prod.fst).Pairwise (· < ·)
  /-- A context that was opened and is gone stays away. -/
  gone : ∀ before after id, operations = before ++ after →
    id ∈ (({} : Arena).openings before).map Prod.fst →
    (({} : Arena).performAll before).record? id = none →
    (({} : Arena).performAll operations).record? id = none
  older : ∀ arena ∈ ({} : Arena).moments operations, ∀ id record parent,
    arena.record? id = some record → record.parent = some parent → parent < id
  /-- A context begins in the state that it is opened in and lives along the edges. -/
  lives : ∀ id record, (id, record) ∈ ({} : Arena).openings operations →
    ∃ later, ({} : Arena).statesDuring operations id = record.state :: later ∧
      (record.state :: later).IsChain ContextState.Becomes
  /-- A terminal state is never left. -/
  ended : ∀ id record, (id, record) ∈ ({} : Arena).openings operations →
    (({} : Arena).statesDuring operations id).Pairwise fun old new =>
      old.isTerminal = true → new = old
  /-- A refused move tells the state of the context and changes nothing. -/
  refused : ∀ arena ∈ ({} : Arena).moments operations, ∀ id next fault,
    (arena.transition id next).1 = .error fault →
      fault = .invalidTransition id (arena.state? id) next ∧ (arena.transition id next).2 = arena
  /-- Every climb ends, and what it passes is the line of ancestors. -/
  climbs : ∀ arena ∈ ({} : Arena).moments operations, ∀ id chain,
    arena.Climb (some id) chain ↔ chain = arena.ancestry id
  live : ∀ arena ∈ ({} : Arena).moments operations, ∀ id,
    (∀ passed ∈ arena.ancestry id, (arena.record? passed).isSome) ∧
      (arena.ancestry id).head? = if (arena.record? id).isSome then some id else none
  decreasing : ∀ arena ∈ ({} : Arena).moments operations, ∀ id,
    (arena.ancestry id).Pairwise (· > ·)
  /-- The line goes from parent to parent, up to a context without a live parent. -/
  parents : ∀ arena ∈ ({} : Arena).moments operations, ∀ id,
    (arena.ancestry id).IsChain (fun child parent => arena.parent? child = some parent) ∧
      ∀ last, (arena.ancestry id).getLast? = some last →
        arena.parent? last = none ∨
          ∃ parent, arena.parent? last = some parent ∧ arena.record? parent = none

theorem history_kept (operations : List ArenaOperation)
    (admitted : ({} : Arena).Admits operations) : HistoryKept operations := by
  have positive : 0 < ({} : Arena).nextId := Nat.zero_lt_one
  have ordered := parentsFirst_empty.moments positive admitted
  constructor
  case fresh => exact pairwise_openings {} operations
  case gone =>
    intro before after id split opened absent
    have named := (hasNamed_performAll_iff {} positive before id).mpr (.inr opened)
    rw [split, performAll_append]
    exact named.record?_performAll absent after
  case older =>
    intro arena moment id record parent found ofParent
    exact (ordered arena moment).older found ofParent
  case lives =>
    intro id record opened
    exact statesDuring_of_opening parentsFirst_empty positive admitted opened
  case ended =>
    intro id record opened
    obtain ⟨later, states, chain⟩ :=
      statesDuring_of_opening parentsFirst_empty positive admitted opened
    rw [states]
    exact ContextState.pairwise_of_isChain chain
  case refused =>
    intro arena _ id next fault refused
    exact transition_refused refused
  case climbs =>
    intro arena moment id chain
    have climb := (ordered arena moment).climb_ancestry id
    constructor
    · intro other
      exact other.unique climb
    · rintro rfl
      exact climb
  case live =>
    intro arena moment id
    have climb := (ordered arena moment).climb_ancestry id
    exact ⟨climb.live, climb.head?⟩
  case decreasing =>
    intro arena moment id
    exact ((ordered arena moment).climb_ancestry id).pairwise_gt (ordered arena moment)
  case parents =>
    intro arena moment id
    have climb := (ordered arena moment).climb_ancestry id
    exact ⟨climb.isChain_parent, fun _ ends => climb.parent?_getLast ends⟩

example : (({} : Arena).performAll [.openRoot, .openWorker 1 "p::one(0)",
    .openWorker 2 "p::two(0)", .release 2]).ancestry 3 = [3] := by decide

/-- A worker below a root runs and ends while its root is released. -/
theorem history_kept_of_orphaned_worker :
    HistoryKept [.openRoot, .openWorker 1 "p::one(0)", .move 2 .runnable, .move 2 .running,
      .release 1, .openChild 1, .move 2 .completed, .move 2 .running] := by
  apply history_kept
  simp [Admits, ArenaOperation.opens?, perform, HasNamed, register, release, nextId_transition]

end Arena

end WorkerMachine
