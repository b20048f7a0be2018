import WorkerMachine.Proofs.Settling.Books
/-!
# Entries in the books

Every step of a thread leaves the books in agreement with the machine, once the thread has entered
what it did: it takes up a context, makes a task of it, moves it on, hands in its contribution, and
lets go of it.
-/

namespace WorkerMachine.Settling

variable {machine later : Machine} {books : Books} {hands : ThreadId → Hand} {thread : ThreadId}
  {task : Task} {docket : Docket} {account : Account} {response : ResponseId} {rest : Hand}
  {place : ArenaKey × ContextId} {stage next : Stage} {closed : Option Account}
  {active : Bool}

/-! ## Steps that touch one context at most -/

/-- Two states of a context that may be changed for one another by the calls of anybody. -/
def Similar (before after : Option ContextState) : Prop :=
  after = before ∨ Active before ∧ Active after

theorem Active.similar {before after : Option ContextState} (active : Active before)
    (similar : Similar before after) : Active after := by
  obtain rfl | ⟨_, activeAfter⟩ := similar
  · exact active
  · exact activeAfter

theorem Stage.Allows.similar {before after : Option ContextState} (allows : stage.Allows before)
    (similar : Similar before after) : stage.Allows after := by
  obtain rfl | ⟨active, activeAfter⟩ := similar
  · exact allows
  · cases stage with
    | created =>
      cases allows
      simp [Active] at active
    | ready =>
      cases allows
      simp [Active] at active
    | entered => exact activeAfter
    | begun => exact activeAfter
    | finished outcome =>
      cases allows
      cases outcome <;> simp [Active, WorkerOutcome.lastState] at active

/-- A step that has to do with the states of contexts only, and with those of one context at most
unless the change does not matter. -/
structure Quiet (place : Option (ArenaKey × ContextId)) (machine later : Machine) : Prop where
  responses : later.responses = machine.responses
  history : later.history = machine.history
  waitingTasks : later.waitingTasks = machine.waitingTasks
  nextId : ∀ key, (machine.arena key).nextId ≤ (later.arena key).nextId
  states : ∀ key id, place ≠ some (key, id) →
    Similar (machine.stateIn? key id) (later.stateIn? key id)

theorem Quiet.sameResponse {place : Option (ArenaKey × ContextId)}
    (quiet : Quiet place machine later) (response : ResponseId) :
    later.response response = machine.response response := by
  unfold Machine.response
  rw [quiet.responses]

theorem Quiet.proceeds {place : Option (ArenaKey × ContextId)} (quiet : Quiet place machine later) :
    Proceeds machine later := by
  constructor
  · exact quiet.history.symm ▸ List.suffix_refl _
  · exact quiet.responses.symm ▸ Nat.le_refl _
  · intro response _
    exact .inl (quiet.sameResponse response)

theorem Item.Holds.quiet {item : Item} {place : Option (ArenaKey × ContextId)}
    (holds : item.Holds machine books) (quiet : Quiet place machine later)
    (apart : ∀ other, item.key = .context other → place ≠ some other) :
    item.Holds later books := by
  cases item with
  | context other active =>
    apply And.intro (Nat.lt_of_lt_of_le holds.1 (quiet.nextId other.1))
    intro isActive
    exact (holds.2 isActive).similar (quiet.states _ _ (apart _ rfl))
  | task own stage =>
    obtain ⟨opened, made, pending, allows, started⟩ := holds
    simp only [Item.Holds, quiet.responses, quiet.history]
    exact ⟨opened, made, pending, allows.similar (quiet.states _ _ (apart _ rfl)), started⟩
  | call response docket closed =>
    simp only [Item.Holds, quiet.responses]
    exact holds
  | copy number response docket =>
    simp only [Item.Holds, quiet.responses]
    exact holds

theorem Kept.quiet {place : Option (ArenaKey × ContextId)}
    (kept : Kept machine docket account response) (quiet : Quiet place machine later) :
    Kept later docket account response where
  sound := kept.sound
  expected := kept.expected
  told := (quiet.sameResponse response).trans kept.told
  fits := kept.fits
  planned := kept.planned
  made := by
    intro task isMade
    obtain ⟨makes, older⟩ := kept.made task isMade
    exact ⟨makes, Nat.lt_of_lt_of_le older (quiet.nextId _)⟩
  distinct := kept.distinct
  delivered := by
    rw [quiet.history]
    exact kept.delivered

/-! ## Amending the books about a call -/

theorem Books.mem_made_of_amended {amended : Docket} {asked : ResponseId}
    (stays : ∀ task ∈ (books.docket response).made, task ∈ amended.made)
    (made : task ∈ (books.docket asked).made) :
    task ∈ ((books.withDocket response amended).docket asked).made := by
  by_cases same : asked = response
  · subst same
    rw [Books.docket_withDocket_self]
    exact stays task made
  · rwa [books.docket_withDocket_of_ne _ same]

/-- While a call is not whole, its docket may be amended with no concern to items about anything else
than the call, as long as the tasks stay that have been made for it. -/
theorem Item.Holds.amend {item : Item} {amended : Docket} (holds : item.Holds machine books)
    (different : item.key ≠ .call response) (unfinished : ¬(books.docket response).Whole)
    (stays : ∀ task ∈ (books.docket response).made, task ∈ amended.made) :
    item.Holds machine (books.withDocket response amended) := by
  cases item with
  | context place active => exact holds
  | task own stage =>
    obtain ⟨opened, made, pending, allows, started⟩ := holds
    exact ⟨opened, Books.mem_made_of_amended stays made, pending, allows, started⟩
  | call other own closed =>
    have notSame : other ≠ response := by
      rintro rfl
      exact different rfl
    simpa only [Item.Holds, Books.account_withDocket,
      books.docket_withDocket_of_ne _ notSame] using holds
  | copy number other own =>
    obtain ⟨opened, isOwn, whole⟩ := holds
    have notSame : other ≠ response := by
      rintro rfl
      rw [isOwn] at unfinished
      exact unfinished whole
    exact ⟨opened, (books.docket_withDocket_of_ne _ notSame).trans isOwn, whole⟩

theorem Kept.make {account : Account} (kept : Kept machine docket account response)
    (makes : docket.Makes response task)
    (planned : (docket.make task).made.map Task.part <+: docket.plan)
    (isNew : ∀ other ∈ docket.made, other.context.id ≠ task.context.id)
    (older : task.context.id < (machine.arena docket.parent.arena).nextId) :
    Kept machine (docket.make task) account response := by
  constructor
  case sound => exact kept.sound
  case expected => exact kept.expected
  case told => exact kept.told
  case fits => exact kept.fits
  case planned => exact planned
  case made =>
    intro own isMade
    obtain wasMade | isTask := List.mem_append.mp isMade
    · obtain ⟨ownMakes, ownOlder⟩ := kept.made own wasMade
      exact ⟨ownMakes.make task, ownOlder⟩
    · rw [List.mem_singleton.mp isTask]
      exact ⟨makes.make task, older⟩
  case distinct =>
    simp only [Docket.make, List.map_append, List.map_cons, List.map_nil]
    apply List.nodup_append.mpr
    refine ⟨kept.distinct, List.nodup_singleton _, ?_⟩
    intro first isFirst second isSecond
    obtain ⟨own, wasMade, rfl⟩ := List.mem_map.mp isFirst
    rw [List.mem_singleton.mp isSecond]
    exact isNew own wasMade
  case delivered =>
    intro contribution isAccepted
    obtain ⟨own, wasMade, delivered⟩ := kept.delivered contribution isAccepted
    exact ⟨own, List.mem_append_left _ wasMade, delivered⟩

namespace Agree

variable (agree : Agree machine books hands)

include agree

theorem known {item : Item} (holds : item.Holds machine books)
    (isContext : item.key = .context place) : place.2 < (machine.arena place.1).nextId := by
  cases item with
  | context other active =>
    cases isContext
    exact holds.1
  | task own stage =>
    cases isContext
    obtain ⟨opened, made, _⟩ := holds
    obtain ⟨makes, older⟩ := (agree.kept own.response opened).made own made
    rw [makes.place_eq]
    exact older
  | call response docket closed => cases isContext
  | copy number response docket => cases isContext

/-- A step that touches no context in particular. -/
theorem calm (quiet : Quiet none machine later) : Agree later books hands := by
  have samePile : pile later = pile machine := by
    unfold pile
    rw [quiet.waitingTasks]
  constructor
  · rw [samePile]
    exact agree.apart
  · intro thread item member
    exact (agree.held thread item member).quiet quiet fun _ _ never => by cases never
  · rw [samePile]
    intro item member
    exact (agree.piled item member).quiet quiet fun _ _ never => by cases never
  · rw [quiet.responses]
    intro response opened
    exact (agree.kept response opened).quiet quiet
  · rw [quiet.responses, quiet.waitingTasks]
    exact agree.covered
  · rw [quiet.history, quiet.responses]
    exact agree.started

/-- A thread exchanges the items in front of its hand, along with the machine and the books.  Items
about anything else stay true, and no task gets lost. -/
theorem renew (items front : Hand) {laterBooks : Books} (holding : hands thread = items ++ rest)
    (samePile : later.waitingTasks = machine.waitingTasks)
    (apart : Apart Item.key (pile machine) (Function.update hands thread (front ++ rest)))
    (elsewhere : ∀ item : Item, (∀ own ∈ items, item.key ≠ own.key) → item.Holds machine books →
      item.Holds later laterBooks)
    (holds : ∀ new ∈ front, new.Holds later laterBooks)
    (kept : ∀ response < later.responses.size,
      Kept later (laterBooks.docket response) (laterBooks.account response) response)
    (covered : ∀ response < later.responses.size, (laterBooks.docket response).lost = false →
      ∀ task ∈ (laterBooks.docket response).made,
        task.context.id ∉ (laterBooks.account response).accepted.map Contribution.worker →
          (∃ stage, .task task stage ∈ front) ∨
            response < machine.responses.size ∧ (books.docket response).lost = false ∧
              task ∈ (books.docket response).made ∧
              task.context.id ∉ (books.account response).accepted.map Contribution.worker ∧
              ∀ stage, .task task stage ∉ items)
    (started : ∀ task, .started task ∈ later.history →
      task.response < later.responses.size ∧ task ∈ (laterBooks.docket task.response).made) :
    Agree later laterBooks (Function.update hands thread (front ++ rest)) := by
  have sameItems : pile later = pile machine := by
    unfold pile
    rw [samePile]
  have wasHeld : ∀ other, ∀ held ∈ Function.update hands thread rest other, held ∈ hands other := by
    intro other held member
    by_cases same : other = thread
    · subst same
      rw [Function.update_self] at member
      rw [holding]
      exact List.mem_append_right _ member
    · rwa [Function.update_of_ne same] at member
  have stillHolds : ∀ other, ∀ held ∈ Function.update hands thread rest other,
      held.Holds later laterBooks := by
    intro other held member
    apply elsewhere held _ (agree.held other held (wasHeld other held member))
    intro own inFront
    exact agree.apart.ne_of_mem holding inFront member
  constructor
  · rw [sameItems]
    exact apart
  · intro other held member
    have inRest := stillHolds other
    by_cases same : other = thread
    · subst same
      rw [Function.update_self] at member inRest
      obtain inFront | isOld := List.mem_append.mp member
      · exact holds held inFront
      · exact inRest held isOld
    · rw [Function.update_of_ne same] at member inRest
      exact inRest held member
  · rw [sameItems]
    intro piled member
    apply elsewhere piled _ (agree.piled piled member)
    intro own inFront
    have isHeld : own ∈ hands thread := by
      rw [holding]
      exact List.mem_append_left _ inFront
    exact agree.apart.ne_of_mem_pile isHeld member
  · exact kept
  · rw [samePile]
    intro response opened notLost task made pending
    obtain ⟨stage, inFront⟩ | ⟨wasOpened, wasNotLost, wasMade, wasPending, notItem⟩ :=
      covered response opened notLost task made pending
    · exact .inr ⟨thread, stage, by simp [inFront]⟩
    obtain waits | ⟨other, stage, isHeld⟩ :=
      agree.covered response wasOpened wasNotLost task wasMade wasPending
    · exact .inl waits
    · right
      by_cases same : other = thread
      · subst same
        rw [holding] at isHeld
        obtain isItem | inRest := List.mem_append.mp isHeld
        · exact absurd isItem (notItem stage)
        · exact ⟨other, stage, by simp [inRest]⟩
      · exact ⟨other, stage, by rwa [Function.update_of_ne same]⟩
  · exact started

/-- The item in front of a hand is replaced by others, while the machine makes a quiet step with its
place. -/
theorem replace {item : Item} (front : Hand) {place : Option (ArenaKey × ContextId)}
    (holding : hands thread = item :: rest) (isPlace : ∀ own, place = some own → item.key = .context own)
    (quiet : Quiet place machine later)
    (apart : Apart Item.key (pile machine) (Function.update hands thread (front ++ rest)))
    (holds : ∀ new ∈ front, new.Holds later books)
    (kept : ∀ task stage, item = .task task stage → ∃ stage, .task task stage ∈ front) :
    Agree later books (Function.update hands thread (front ++ rest)) := by
  apply agree.renew [item] front holding quiet.waitingTasks apart
  · intro other different held
    apply held.quiet quiet
    intro own isContext same
    apply different item (List.mem_singleton_self item)
    exact isContext.trans (isPlace own same).symm
  · exact holds
  · rw [quiet.responses]
    intro response opened
    exact (agree.kept response opened).quiet quiet
  · rw [quiet.responses]
    intro response opened notLost task made pending
    by_cases isItem : ∃ stage, Item.task task stage = item
    · obtain ⟨stage, same⟩ := isItem
      exact .inl (kept task stage same.symm)
    · right
      apply And.intro opened
      apply And.intro notLost
      apply And.intro made
      apply And.intro pending
      intro stage member
      exact isItem ⟨stage, List.mem_singleton.mp member⟩
  · rw [quiet.history, quiet.responses]
    exact agree.started

theorem move (holding : hands thread = .task task stage :: rest)
    (quiet : Quiet (some task.context.place) machine later)
    (allows : next.Allows (later.stateIn? task.context.arena task.context.id))
    (sameStart : next.hasStarted = stage.hasStarted) :
    Agree later books (Function.update hands thread (.task task next :: rest)) := by
  have held : Item.Holds machine books (.task task stage) := by
    apply agree.held thread
    rw [holding]
    exact List.mem_cons_self
  obtain ⟨opened, made, pending, _, started⟩ := held
  have holds : Item.Holds later books (.task task next) := by
    simp only [Item.Holds, quiet.responses, quiet.history, sameStart]
    exact ⟨opened, made, pending, allows, started⟩
  apply agree.replace [.task task next] holding _ quiet
  · apply agree.apart.exchange
    simp [holding, Item.key]
  · intro new member
    rw [List.mem_singleton.mp member]
    exact holds
  · intro other _ isItem
    cases isItem
    exact ⟨next, List.mem_singleton_self _⟩
  · intro own isOwn
    cases isOwn
    rfl

theorem release (holding : hands thread = .context place active :: rest)
    (quiet : Quiet (some place) machine later) :
    Agree later books (Function.update hands thread rest) := by
  apply agree.replace [] holding _ quiet
  · exact agree.apart.drop holding
  · intro new never
    cases never
  · intro other _ isItem
    cases isItem
  · intro own isOwn
    cases isOwn
    rfl

theorem isActive (known : KnowsActive place (hands thread)) :
    Active (machine.stateIn? place.1 place.2) := by
  obtain ⟨item, member, tells⟩ := known
  have holds := agree.held thread item member
  cases item with
  | context own active =>
    obtain ⟨rfl, toldActive⟩ := tells
    exact holds.2 toldActive
  | task own stage =>
    obtain ⟨rfl, rfl⟩ := tells
    obtain ⟨_, _, _, active, _⟩ := holds
    exact active
  | call response docket closed => exact tells.elim
  | copy number response docket => exact tells.elim

theorem forget {item : Item} (holding : hands thread = item :: rest)
    (noTask : ∀ task stage, item ≠ .task task stage) :
    Agree machine books (Function.update hands thread rest) := by
  have quiet : Quiet none machine machine :=
    ⟨rfl, rfl, rfl, fun _ => Nat.le_refl _, fun _ _ _ => .inl rfl⟩
  apply agree.replace [] holding _ quiet
  · exact agree.apart.drop holding
  · intro new never
    cases never
  · intro task stage isItem
    exact absurd isItem (noTask task stage)
  · intro own never
    cases never

theorem create {holding : Hand} (isHand : hands thread = holding)
    (isNew : place.2 = (machine.arena place.1).nextId)
    (quiet : Quiet (some place) machine later)
    (holds : Item.Holds later books (.context place active)) :
    Agree later books (Function.update hands thread (.context place active :: holding)) := by
  have notKnown : ∀ item : Item, item.Holds machine books → item.key ≠ .context place := by
    intro item holds isContext
    have known := agree.known holds isContext
    rw [isNew] at known
    exact Nat.lt_irrefl _ known
  apply agree.renew [] [.context place active] isHand quiet.waitingTasks
  · subst isHand
    apply agree.apart.create
    · intro other held member
      exact notKnown held (agree.held other held member)
    · intro held member
      exact notKnown held (agree.piled held member)
  · intro item _ holds
    apply holds.quiet quiet
    intro other isContext same
    cases same
    exact notKnown item holds isContext
  · intro new member
    rw [List.mem_singleton.mp member]
    exact holds
  · rw [quiet.responses]
    intro response opened
    exact (agree.kept response opened).quiet quiet
  · rw [quiet.responses]
    intro response opened notLost task made pending
    exact .inr ⟨opened, notLost, made, pending, fun stage => List.not_mem_nil⟩
  · rw [quiet.history, quiet.responses]
    exact agree.started

/-! ## Tasks and calls -/

theorem adopt (holding :
      hands thread = .context task.context.place active :: .call response docket none :: rest)
    (makes : docket.Makes response task)
    (planned : (docket.make task).made.map Task.part <+: docket.plan)
    (isNew : ∀ other ∈ docket.made, other.context.id ≠ task.context.id)
    (created : machine.stateIn? task.context.arena task.context.id = some .created)
    (notStarted : .started task ∉ machine.history) :
    Agree machine (books.withDocket response (docket.make task))
      (Function.update hands thread
        (.task task .created :: .call response (docket.make task) none :: rest)) := by
  have held : ∀ item ∈ hands thread, item.Holds machine books := agree.held thread
  rw [holding] at held
  have known := held (.context task.context.place active) List.mem_cons_self
  obtain ⟨opened, isDocket, _⟩ := held (.call response docket none)
    (List.mem_cons_of_mem _ List.mem_cons_self)
  have kept := agree.kept response opened
  rw [isDocket] at kept
  have ofResponse := makes.response_eq
  have notContributed : task.context.id ∉
      (books.account response).accepted.map Contribution.worker := by
    intro member
    obtain ⟨other, isMade, same⟩ := List.mem_map.mp (kept.among member)
    exact isNew other isMade same
  have unfinished : ¬docket.Whole := by
    have isNext : docket.made.map Task.part ++ [task.part] <+: docket.plan := by
      simpa [Docket.make] using planned
    exact Docket.not_whole_of_planned isNext
  have stays : ∀ own ∈ (books.docket response).made, own ∈ (docket.make task).made := by
    intro own made
    rw [isDocket] at made
    exact List.mem_append_left _ made
  apply agree.renew [.context task.context.place active, .call response docket none]
    [.task task .created, .call response (docket.make task) none] holding rfl
  · apply agree.apart.exchange
    simp [holding, Item.key]
  · intro item different holds
    apply holds.amend (different _ (List.mem_cons_of_mem _ List.mem_cons_self)) _ stays
    rwa [isDocket]
  · intro new member
    obtain rfl | isCall := List.mem_cons.mp member
    · simp only [Item.Holds, ofResponse, Books.docket_withDocket_self]
      refine ⟨opened, ?_, notContributed, created, ?_⟩
      · exact List.mem_append_right _ (List.mem_singleton_self task)
      · simpa [Stage.hasStarted] using notStarted
    · rw [List.mem_singleton.mp isCall]
      simp [Item.Holds, opened]
  · intro other otherOpened
    by_cases same : other = response
    · subst same
      rw [Books.docket_withDocket_self]
      apply kept.make makes planned isNew
      rw [makes.place_eq] at known
      exact known.1
    · rw [books.docket_withDocket_of_ne _ same]
      exact agree.kept other otherOpened
  · intro other otherOpened notLost own made pending
    by_cases same : other = response
    · subst same
      rw [Books.docket_withDocket_self] at notLost made
      obtain wasMade | isTask := List.mem_append.mp made
      · right
        rw [isDocket]
        refine ⟨otherOpened, notLost, wasMade, pending, ?_⟩
        simp
      · rw [List.mem_singleton.mp isTask]
        exact .inl ⟨.created, List.mem_cons_self⟩
    · rw [books.docket_withDocket_of_ne _ same] at notLost made
      exact .inr ⟨otherOpened, notLost, made, pending, by simp⟩
  · intro own started
    obtain ⟨ownOpened, made⟩ := agree.started own started
    exact ⟨ownOpened, Books.mem_made_of_amended stays made⟩

theorem noteStart (holding : hands thread = .task task .entered :: rest) :
    Agree (machine.record (.started task)) books
      (Function.update hands thread (.task task .begun :: rest)) := by
  have held : Item.Holds machine books (.task task .entered) := by
    apply agree.held thread
    rw [holding]
    exact List.mem_cons_self
  obtain ⟨opened, made, pending, allows, _⟩ := held
  have sameTasks : (machine.record (.started task)).waitingTasks = machine.waitingTasks := rfl
  apply agree.renew [.task task .entered] [.task task .begun] holding sameTasks
  · apply agree.apart.exchange
    simp [holding, Item.key]
  · intro item different holds
    cases item with
    | context place active => exact holds
    | task own stage =>
      obtain ⟨ownOpened, ownMade, ownPending, ownAllows, ownStarted⟩ := holds
      have notSame : own ≠ task := by
        rintro rfl
        exact different (.task own .entered) (List.mem_singleton_self _) rfl
      refine ⟨ownOpened, ownMade, ownPending, ownAllows, ownStarted.trans ?_⟩
      simp [Machine.record, notSame]
    | call other held closed => exact holds
    | copy number other held => exact holds
  · intro new member
    rw [List.mem_singleton.mp member]
    refine ⟨opened, made, pending, allows, ?_⟩
    simp [Stage.hasStarted, Machine.record]
  · intro response isOpened
    have kept := agree.kept response isOpened
    exact
      { kept with
        delivered := by
          intro contribution isAccepted
          obtain ⟨own, wasMade, sameWorker, delivered⟩ := kept.delivered contribution isAccepted
          refine ⟨own, wasMade, sameWorker, ?_⟩
          obtain ⟨outcome, after, ended, started, isOutcome, isResult⟩ | ⟨isDropped, notStarted⟩ :=
            delivered
          · exact .inl ⟨outcome, after, List.mem_cons_of_mem _ ended, List.mem_cons_of_mem _ started,
              isOutcome, isResult⟩
          · right
            apply And.intro isDropped
            intro started
            obtain isTask | before := List.mem_cons.mp started
            · -- The task that starts has not contributed.
              cases isTask
              apply pending
              rw [((kept.made _ wasMade).1).response_eq, sameWorker]
              exact List.mem_map_of_mem isAccepted
            · exact notStarted before }
  · intro response isOpened notLost own wasMade ownPending
    by_cases same : own = task
    · subst same
      exact .inl ⟨.begun, List.mem_singleton_self _⟩
    · exact .inr ⟨isOpened, notLost, wasMade, ownPending, by simp [same]⟩
  · intro own started
    obtain isTask | before := List.mem_cons.mp started
    · cases isTask
      exact ⟨opened, made⟩
    · exact agree.started own before

/-- Anything but the start of a task is noted. -/
theorem note {happening : Happening} (noStart : ∀ own, happening ≠ .started own) :
    Agree (machine.record happening) books hands := by
  have sameStarts : ∀ own : Task, .started own ∈ (machine.record happening).history ↔
      .started own ∈ machine.history := by
    intro own
    simp [Machine.record, (noStart own).symm]
  have holds : ∀ item : Item, item.Holds machine books →
      item.Holds (machine.record happening) books := by
    intro item held
    cases item with
    | context place active => exact held
    | task own stage =>
      obtain ⟨opened, made, pending, allows, started⟩ := held
      exact ⟨opened, made, pending, allows, started.trans (sameStarts own).symm⟩
    | call other known closed => exact held
    | copy number other known => exact held
  constructor
  · exact agree.apart
  · intro other item member
    exact holds item (agree.held other item member)
  · intro item member
    exact holds item (agree.piled item member)
  · intro response opened
    have kept := agree.kept response opened
    exact
      { kept with
        delivered := by
          intro contribution isAccepted
          obtain ⟨own, wasMade, sameWorker, delivered⟩ := kept.delivered contribution isAccepted
          refine ⟨own, wasMade, sameWorker, ?_⟩
          obtain ⟨exit, after, ended, started, isOutcome, isResult⟩ | ⟨isDropped, notStarted⟩ :=
            delivered
          · exact .inl ⟨exit, after, List.mem_cons_of_mem _ ended, List.mem_cons_of_mem _ started,
              isOutcome, isResult⟩
          · exact .inr ⟨isDropped, fun started => notStarted ((sameStarts own).mp started)⟩ }
  · exact agree.covered
  · intro own started
    exact agree.started own ((sameStarts own).mp started)

end Agree

end WorkerMachine.Settling
