import WorkerMachine.Proofs.Settling.Entries
/-!
# Turnover

Calls are opened, tasks go to the pile and come from it, and contributions are handed in.  An account
is closed once every task of its call has contributed.
-/

namespace WorkerMachine.Settling

variable {machine later : Machine} {books : Books} {hands : ThreadId → Hand} {thread : ThreadId}
  {task : Task} {docket : Docket} {response : ResponseId} {rest token : Hand} {stage : Stage}

/-! ## Contributions -/

theorem Kept.length_le {account : Account} (kept : Kept machine docket account response) :
    account.accepted.length ≤ docket.unit.workers.length := by
  rw [← kept.expected]
  exact account.bounded

/-- A call whose response has nothing outstanding has a contribution of every worker. -/
theorem Kept.complete {account : Account} (kept : Kept machine docket account response)
    (nothing : (machine.response response).outstanding = 0) :
    account.accepted.length = docket.unit.workers.length := by
  have bounded := kept.length_le
  rw [kept.told] at nothing
  simp only [Account.response, kept.expected] at nothing
  omega

theorem Kept.contributors {account : Account} (kept : Kept machine docket account response) :
    (machine.response response).contributors =
      (account.accepted.map Contribution.worker).reverse := by
  rw [kept.told]
  rfl

theorem Kept.takeIn {account : Account} (kept : Kept machine docket account response)
    (isMade : task ∈ docket.made) (opened : response < machine.responses.size)
    {outcome : WorkerOutcome} {result : RegisterFile}
    (fits : Contribution.Fits ⟨task.context.id, outcome, result⟩ docket.unit.returns)
    (delivered : Delivered machine.history task ⟨task.context.id, outcome, result⟩)
    (admitted : account.Admits task.context.id) :
    (∃ completes, (machine.contribute response task.context.id outcome result).1 = .ok completes) ∧
      Kept (machine.contribute response task.context.id outcome result).2 docket
        (account.takeIn ⟨task.context.id, outcome, result⟩ admitted) response := by
  have fewer := admitted.1
  rw [kept.expected] at fewer
  have notComplete : account.accepted.length ≠ docket.unit.workers.length := Nat.ne_of_lt fewer
  have taken : (machine.response response).contribute task.context.id outcome result =
      ((account.takeIn ⟨task.context.id, outcome, result⟩ admitted).response docket.unit.returns
          docket.waits (if account.accepted.length + 1 = docket.unit.workers.length then 1 else 0),
        .ok (decide (account.accepted.length + 1 = docket.unit.workers.length))) := by
    have accepted : (account.response docket.unit.returns docket.waits 0).accept
        ⟨task.context.id, outcome, result⟩ = _ :=
      Account.accept_response kept.sound.returns fits admitted
    rw [kept.expected, Nat.zero_add] at accepted
    rw [kept.told, if_neg notComplete]
    exact accepted
  constructor
  · unfold Machine.contribute
    rw [taken]
    exact ⟨_, rfl⟩
  · constructor
    case sound => exact kept.sound
    case expected => exact kept.expected
    case told =>
      rw [Machine.response_contribute, if_pos ⟨rfl, opened⟩, taken]
      simp [Account.takeIn]
    case fits =>
      intro contribution member
      obtain isOld | isNew := List.mem_append.mp member
      · exact kept.fits contribution isOld
      · rw [List.mem_singleton.mp isNew]
        exact fits
    case planned => exact kept.planned
    case made => exact kept.made
    case distinct => exact kept.distinct
    case delivered =>
      intro contribution member
      obtain isOld | isNew := List.mem_append.mp member
      · exact kept.delivered contribution isOld
      · rw [List.mem_singleton.mp isNew]
        exact ⟨task, isMade, rfl, delivered⟩

theorem Kept.of_same {account : Account} (kept : Kept machine docket account response)
    (sameResponse : later.response response = machine.response response)
    (history : later.history = machine.history)
    (nextId : ∀ key, (machine.arena key).nextId ≤ (later.arena key).nextId) :
    Kept later docket account response :=
  { kept with
    told := sameResponse.trans kept.told
    made := by
      intro task isMade
      obtain ⟨makes, older⟩ := kept.made task isMade
      exact ⟨makes, Nat.lt_of_lt_of_le older (nextId _)⟩
    delivered := by
      rw [history]
      exact kept.delivered }

/-- Once a task has contributed, an item about anything else still tells the truth. -/
theorem Item.Holds.takeIn {item : Item} {outcome : WorkerOutcome} {result : RegisterFile}
    (holds : item.Holds machine books)
    (kept : Kept machine (books.docket task.response) (books.account task.response) task.response)
    (isMade : task ∈ (books.docket task.response).made)
    (admitted : (books.account task.response).Admits task.context.id)
    (different : item.key ≠ (Item.task task stage).key) :
    item.Holds (machine.contribute task.response task.context.id outcome result).2
      (books.withAccount task.response
        ((books.account task.response).takeIn ⟨task.context.id, outcome, result⟩ admitted)) := by
  have sameSize := machine.size_responses_contribute task.response task.context.id outcome result
  cases item with
  | context place active => exact holds
  | task own ownStage =>
    obtain ⟨ownOpened, ownMade, ownPending, allows, started⟩ := holds
    simp only [Item.Holds, sameSize, Books.docket_withAccount]
    refine ⟨ownOpened, ownMade, ?_, allows, started⟩
    by_cases same : own.response = task.response
    · rw [same, Books.account_withAccount_self]
      rw [same] at ownPending ownMade
      simp only [Account.takeIn, List.map_append, List.mem_append, List.map_cons, List.map_nil,
        List.mem_singleton, not_or]
      apply And.intro ownPending
      intro sameId
      have sameTask := kept.eq_of_id ownMade isMade sameId
      subst sameTask
      exact different rfl
    · rw [books.account_withAccount_of_ne _ same]
      exact ownPending
  | call other held closed =>
    obtain ⟨otherOpened, isDocket, isClosed⟩ := holds
    simp only [Item.Holds, sameSize, Books.docket_withAccount]
    refine ⟨otherOpened, isDocket, fun account isAccount => ?_⟩
    obtain ⟨sameAccount, isFull⟩ := isClosed account isAccount
    have notSame : other ≠ task.response := by
      rintro rfl
      -- A closed account takes nothing in.
      have fewer := admitted.1
      rw [kept.expected, isDocket, sameAccount, isFull] at fewer
      exact Nat.lt_irrefl _ fewer
    rw [books.account_withAccount_of_ne _ notSame]
    exact ⟨sameAccount, isFull⟩
  | copy number other held =>
    simp only [Item.Holds, sameSize, Books.docket_withAccount]
    exact holds

/-! ## What opening a call leaves alone -/

/-- The account of a call that has just been opened is empty. -/
theorem Kept.opening (machine : Machine) (sound : docket.unit.Sound) (nothingMade : docket.made = []) :
    Kept (machine.openResponse docket.unit.returns docket.waits docket.unit.workers.length).2 docket
      (Account.opening.expect docket.unit.workers.length) machine.responses.size := by
  have someWorker : ([] : List Contribution).length ≠ docket.unit.workers.length := by
    simp [Callable.workers]
  constructor
  case sound => exact sound
  case expected => exact Nat.zero_add _
  case told =>
    rw [Machine.response_openResponse, if_pos rfl, Account.expect, Account.opening,
      if_neg someWorker]
    simp [Response.opening, Response.ofReturns, Account.response, Account.stagedFrom]
  case fits =>
    intro contribution never
    cases never
  case planned =>
    rw [nothingMade]
    exact List.nil_prefix
  case made =>
    rw [nothingMade]
    intro task never
    cases never
  case distinct =>
    rw [nothingMade]
    exact List.nodup_nil
  case delivered =>
    intro contribution never
    cases never

/-- An item that tells the truth still does when a further call is opened. -/
theorem Item.Holds.opening {item : Item} (holds : item.Holds machine books) (docket : Docket) :
    item.Holds
      (machine.openResponse docket.unit.returns docket.waits docket.unit.workers.length).2
      ((books.withDocket machine.responses.size docket).withAccount machine.responses.size
        (Account.opening.expect docket.unit.workers.length)) := by
  have opensOne := machine.size_responses_openResponse docket.unit.returns docket.waits
    docket.unit.workers.length
  cases item with
  | context place active => exact holds
  | task own stage =>
    obtain ⟨opened, made, pending, allows, started⟩ := holds
    have different := Nat.ne_of_lt opened
    simp only [Item.Holds, opensOne, Books.docket_withAccount,
      books.docket_withDocket_of_ne docket different,
      Books.account_withAccount_of_ne _ _ different, Books.account_withDocket]
    exact ⟨Nat.lt_succ_of_lt opened, made, pending, allows, started⟩
  | call response held closed =>
    obtain ⟨opened, isDocket, isClosed⟩ := holds
    have different := Nat.ne_of_lt opened
    simp only [Item.Holds, opensOne, Books.docket_withAccount,
      books.docket_withDocket_of_ne docket different,
      Books.account_withAccount_of_ne _ _ different, Books.account_withDocket]
    exact ⟨Nat.lt_succ_of_lt opened, isDocket, isClosed⟩
  | copy number response held =>
    obtain ⟨opened, isDocket, whole⟩ := holds
    have different := Nat.ne_of_lt opened
    simp only [Item.Holds, opensOne, Books.docket_withAccount,
      books.docket_withDocket_of_ne docket different]
    exact ⟨Nat.lt_succ_of_lt opened, isDocket, whole⟩

/-- Nobody has an item about a call that is still to be opened. -/
theorem Item.Holds.key_ne_opening {item : Item} (holds : item.Holds machine books) :
    item.key ≠ .call machine.responses.size := by
  intro isCall
  cases item with
  | call response docket closed =>
    cases isCall
    exact Nat.lt_irrefl _ holds.1
  | context place active => cases isCall
  | task own stage => cases isCall
  | copy number response docket => cases isCall

/-- A task of a call is lost. -/
theorem Kept.lose {account : Account} (kept : Kept machine docket account response) :
    Kept machine docket.lose account response :=
  { kept with
    made := by
      intro own made
      obtain ⟨makes, older⟩ := kept.made own made
      exact ⟨makes.lose, older⟩ }

namespace Agree

variable (agree : Agree machine books hands)

include agree

theorem ofTask (holding : hands thread = .task task stage :: rest) :
    task.response < machine.responses.size ∧ task ∈ (books.docket task.response).made ∧
      task.context.id ∉ (books.account task.response).accepted.map Contribution.worker ∧
      stage.Allows (machine.stateIn? task.context.arena task.context.id) ∧
      (stage.hasStarted = true ↔ .started task ∈ machine.history) := by
  have held := agree.held thread (.task task stage)
  rw [holding] at held
  exact held List.mem_cons_self

theorem contribute (holding : hands thread = .task task stage :: rest) {outcome : WorkerOutcome}
    {result : RegisterFile} (sized : result.sizes = task.context.results.sizes)
    (delivered : Delivered machine.history task ⟨task.context.id, outcome, result⟩) :
    (∃ completes, (machine.contribute task.response task.context.id outcome result).1 =
        .ok completes) ∧
      task.context.id ∉ (machine.response task.response).contributors ∧
      ∃ account, Agree (machine.contribute task.response task.context.id outcome result).2
        (books.withAccount task.response account)
        (Function.update hands thread (.context task.context.place false :: rest)) := by
  obtain ⟨opened, isMade, pending, _, _⟩ := agree.ofTask holding
  have kept := agree.kept task.response opened
  obtain ⟨makes, older⟩ := kept.made task isMade
  have fits : Contribution.Fits ⟨task.context.id, outcome, result⟩
      (books.docket task.response).unit.returns := by
    apply (BankSizes.covers_iff _ _).mpr
    intro bank
    rw [sized, makes.results_eq, RegisterFile.sizes_ofSizes]
  have admitted := kept.admits isMade pending
  obtain ⟨accepted, keptAfter⟩ := kept.takeIn isMade opened fits delivered admitted
  apply And.intro accepted
  constructor
  · rw [kept.contributors, List.mem_reverse]
    exact pending
  refine ⟨(books.account task.response).takeIn ⟨task.context.id, outcome, result⟩ admitted, ?_⟩
  have sameSize := machine.size_responses_contribute task.response task.context.id outcome result
  have samePlan : (machine.contribute task.response task.context.id outcome
      result).2.waitingTasks = machine.waitingTasks := rfl
  apply agree.renew [.task task stage] [.context task.context.place false] holding samePlan
  · apply agree.apart.exchange
    simp [holding, Item.key]
  · intro item different holds
    exact holds.takeIn kept isMade admitted (different _ (List.mem_singleton_self _))
  · intro new member
    rw [List.mem_singleton.mp member]
    rw [makes.place_eq]
    exact ⟨older, fun active => absurd active Bool.false_ne_true⟩
  · rw [sameSize]
    intro other otherOpened
    by_cases same : other = task.response
    · subst same
      rw [Books.account_withAccount_self]
      exact keptAfter
    · rw [books.account_withAccount_of_ne _ same]
      have unchanged : (machine.contribute task.response task.context.id outcome result).2.response
          other = machine.response other := by
        rw [Machine.response_contribute, if_neg fun both => same both.1]
      exact (agree.kept other otherOpened).of_same unchanged rfl fun _ => Nat.le_refl _
  · rw [sameSize]
    intro other otherOpened notLost own made ownPending
    right
    apply And.intro otherOpened
    apply And.intro notLost
    apply And.intro made
    by_cases same : other = task.response
    · subst same
      rw [Books.account_withAccount_self] at ownPending
      simp only [Account.takeIn, List.map_append, List.mem_append, List.map_cons, List.map_nil,
        List.mem_singleton, not_or] at ownPending
      apply And.intro ownPending.1
      intro ownStage isItem
      have sameItem := List.mem_singleton.mp isItem
      cases sameItem
      exact ownPending.2 rfl
    · rw [books.account_withAccount_of_ne _ same] at ownPending
      apply And.intro ownPending
      intro ownStage isItem
      have sameItem := List.mem_singleton.mp isItem
      cases sameItem
      exact same ((agree.kept other otherOpened).made _ made).1.response_eq.symm
  · rw [sameSize]
    exact agree.started

/-! ## Calls -/

theorem openCall (holding : hands thread = token) (docket : Docket) (sound : docket.unit.Sound)
    (nothingMade : docket.made = []) :
    Agree (machine.openResponse docket.unit.returns docket.waits docket.unit.workers.length).2
      ((books.withDocket machine.responses.size docket).withAccount machine.responses.size
        (Account.opening.expect docket.unit.workers.length))
      (Function.update hands thread (.call machine.responses.size docket none :: token)) := by
  have opensOne := machine.size_responses_openResponse docket.unit.returns docket.waits
    docket.unit.workers.length
  have sameTasks : (machine.openResponse docket.unit.returns docket.waits
      docket.unit.workers.length).2.waitingTasks = machine.waitingTasks := rfl
  apply agree.renew [] [.call machine.responses.size docket none] holding sameTasks
  · subst holding
    apply agree.apart.create
    · intro other held member
      exact (agree.held other held member).key_ne_opening
    · intro held member
      exact (agree.piled held member).key_ne_opening
  · intro item _ holds
    exact holds.opening docket
  · intro new member
    rw [List.mem_singleton.mp member]
    simp [Item.Holds, opensOne]
  · rw [opensOne]
    intro other opened
    by_cases same : other = machine.responses.size
    · subst same
      simp only [Books.docket_withAccount, Books.docket_withDocket_self,
        Books.account_withAccount_self]
      exact Kept.opening machine sound nothingMade
    · have below := Nat.lt_of_le_of_ne (Nat.le_of_lt_succ opened) same
      simp only [Books.docket_withAccount, books.docket_withDocket_of_ne docket same,
        Books.account_withAccount_of_ne _ _ same, Books.account_withDocket]
      have unchanged := machine.response_openResponse docket.unit.returns docket.waits
        docket.unit.workers.length other
      rw [if_neg same] at unchanged
      exact (agree.kept other below).of_same unchanged rfl fun _ => Nat.le_refl _
  · rw [opensOne]
    intro other opened notLost own made pending
    by_cases same : other = machine.responses.size
    · subst same
      simp only [Books.docket_withAccount, Books.docket_withDocket_self, nothingMade] at made
      cases made
    · have below := Nat.lt_of_le_of_ne (Nat.le_of_lt_succ opened) same
      simp only [Books.docket_withAccount, books.docket_withDocket_of_ne docket same] at notLost made
      simp only [Books.account_withAccount_of_ne _ _ same, Books.account_withDocket] at pending
      exact .inr ⟨below, notLost, made, pending, fun _ => List.not_mem_nil⟩
  · rw [opensOne]
    intro own started
    obtain ⟨opened, made⟩ := agree.started own started
    rw [Books.docket_withAccount, books.docket_withDocket_of_ne docket (Nat.ne_of_lt opened)]
    exact ⟨Nat.lt_succ_of_lt opened, made⟩

/-- A thread exchanges an item about a call for another one about it, while nothing happens. -/
theorem reword {closed : Option Account} (holding : hands thread = .call response docket none :: rest)
    (full : ∀ account ∈ closed, books.account response = account ∧
      account.accepted.length = docket.unit.workers.length) :
    Agree machine books (Function.update hands thread (.call response docket closed :: rest)) := by
  have quiet : Quiet none machine machine :=
    ⟨rfl, rfl, rfl, fun _ => Nat.le_refl _, fun _ _ _ => .inl rfl⟩
  have held := agree.held thread (.call response docket none)
  rw [holding] at held
  obtain ⟨opened, isDocket, _⟩ := held List.mem_cons_self
  apply agree.replace [.call response docket closed] holding _ quiet
  · apply agree.apart.exchange
    simp [holding, Item.key]
  · intro new member
    rw [List.mem_singleton.mp member]
    exact ⟨opened, isDocket, full⟩
  · intro own stage isItem
    cases isItem
  · intro own never
    cases never

theorem close (holding : hands thread = .call response docket none :: rest)
    (nothing : (machine.response response).outstanding = 0) :
    Agree machine books
      (Function.update hands thread (.call response docket (some (books.account response)) :: rest)) := by
  have held := agree.held thread (.call response docket none)
  rw [holding] at held
  obtain ⟨opened, isDocket, _⟩ := held List.mem_cons_self
  have kept := agree.kept response opened
  rw [isDocket] at kept
  apply agree.reword holding
  intro account isAccount
  cases isAccount
  exact ⟨rfl, kept.complete nothing⟩

/-! ## The pile -/

/-- A thread puts a task on the pile, or takes one from it. -/
theorem shift {hand : Hand} (responses : later.responses = machine.responses)
    (history : later.history = machine.history)
    (arenas : ∀ key, later.arena key = machine.arena key)
    (perm : (hand ++ pile later).Perm (hands thread ++ pile machine)) :
    Agree later books (Function.update hands thread hand) := by
  have states : ∀ key id, later.stateIn? key id = machine.stateIn? key id := by
    intro key id
    unfold Machine.stateIn?
    rw [arenas]
  have sameResponse : ∀ response, later.response response = machine.response response := by
    intro response
    unfold Machine.response
    rw [responses]
  have holds : ∀ item : Item, item.Holds machine books → item.Holds later books := by
    intro item held
    cases item with
    | context place active =>
      simp only [Item.Holds, arenas, states]
      exact held
    | task own stage =>
      simp only [Item.Holds, responses, states, history]
      exact held
    | call response docket closed =>
      simp only [Item.Holds, responses]
      exact held
    | copy number response docket =>
      simp only [Item.Holds, responses]
      exact held
  have wasThere : ∀ item ∈ hand ++ pile later, item.Holds later books := by
    intro item member
    apply holds
    obtain inHand | onPile := List.mem_append.mp (perm.subset member)
    · exact agree.held thread item inHand
    · exact agree.piled item onPile
  constructor
  · exact agree.apart.shift perm
  · intro other item member
    by_cases same : other = thread
    · subst same
      rw [Function.update_self] at member
      exact wasThere item (List.mem_append_left _ member)
    · rw [Function.update_of_ne same] at member
      exact holds item (agree.held other item member)
  · intro item member
    exact wasThere item (List.mem_append_right _ member)
  · rw [responses]
    intro response opened
    apply (agree.kept response opened).of_same (sameResponse response) history
    intro key
    rw [arenas]
  · rw [responses]
    intro response opened notLost task made pending
    -- What was on the pile or in this hand is still in one of the two.
    have stillThere : ∀ stage, Item.task task stage ∈ hands thread ++ pile machine →
        task ∈ later.waitingTasks ∨
          ∃ other stage, .task task stage ∈ Function.update hands thread hand other := by
      intro stage member
      obtain inHand | onPile := List.mem_append.mp (perm.symm.subset member)
      · exact .inr ⟨thread, stage, by simp [inHand]⟩
      · obtain ⟨own, waits, isItem⟩ := List.mem_map.mp onPile
        cases isItem
        exact .inl waits
    obtain waits | ⟨other, stage, isHeld⟩ := agree.covered response opened notLost task made pending
    · apply stillThere .ready
      exact List.mem_append_right _ (List.mem_map_of_mem waits)
    · by_cases same : other = thread
      · subst same
        exact stillThere stage (List.mem_append_left _ isHeld)
      · exact .inr ⟨other, stage, by rwa [Function.update_of_ne same]⟩
  · rw [history, responses]
    exact agree.started

theorem reorder {hand : Hand} (perm : hand.Perm (hands thread)) :
    Agree machine books (Function.update hands thread hand) :=
  agree.shift rfl rfl (fun _ => rfl) (perm.append_right _)

theorem forgetBehind {front : Hand} {closed : Option Account}
    (holding : hands thread = front ++ .call response docket closed :: rest) :
    Agree machine books (Function.update hands thread (front ++ rest)) := by
  have sorted : Agree machine books (Function.update hands thread
      (.call response docket closed :: (front ++ rest))) := by
    apply agree.reorder
    rw [holding]
    exact List.perm_middle.symm
  have forgotten := sorted.forget (Function.update_self ..) fun _ _ never => by cases never
  rwa [Function.update_idem] at forgotten

/-- What the response of a call has come to once its account is closed. -/
theorem answered {account : Account} (member : .call response docket (some account) ∈ hands thread) :
    machine.response response = account.response docket.unit.returns docket.waits 1 := by
  obtain ⟨opened, isDocket, isClosed⟩ := agree.held thread _ member
  obtain ⟨isAccount, full⟩ := isClosed account rfl
  have kept := agree.kept response opened
  rw [isDocket, isAccount] at kept
  have told := kept.told
  rwa [if_pos full] at told

/-- A thread takes a copy of the books about a call that anybody makes. -/
theorem copyDown {asked : ThreadId} {closed : Option Account} {number : Nat}
    (holding : hands thread = token) (member : .call response docket closed ∈ hands asked)
    (whole : docket.Whole)
    (isNew : ∀ other, ∀ held ∈ hands other, held.key ≠ .copy number) :
    Agree machine books (Function.update hands thread (.copy number response docket :: token)) := by
  obtain ⟨opened, isDocket, _⟩ := agree.held asked _ member
  have created : Apart Item.key (pile machine)
      (Function.update hands thread (.copy number response docket :: hands thread)) := by
    apply agree.apart.create
    · exact isNew
    intro held piled
    obtain ⟨task, _, rfl⟩ := List.mem_map.mp piled
    exact nofun
  rw [holding] at created
  apply agree.renew [] [.copy number response docket] holding rfl created
  · exact fun _ _ => id
  · intro new isCopy
    rw [List.mem_singleton.mp isCopy]
    exact ⟨opened, isDocket, whole⟩
  · exact agree.kept
  · intro other otherOpened notLost task made pending
    exact .inr ⟨otherOpened, notLost, made, pending, fun _ => List.not_mem_nil⟩
  · exact agree.started

/-- A task is kept back for good. -/
theorem lose (holding : hands thread = .task task .ready :: .call task.response docket none :: rest)
    (unfinished : ¬docket.Whole) (quiet : Quiet none machine later) :
    Agree later (books.withDocket task.response docket.lose)
      (Function.update hands thread (.call task.response docket.lose none :: rest)) := by
  have held := agree.held thread (.call task.response docket none)
  rw [holding] at held
  obtain ⟨opened, rfl, _⟩ := held (List.mem_cons_of_mem _ List.mem_cons_self)
  apply agree.renew [.task task .ready, .call task.response (books.docket task.response) none]
    [.call task.response (books.docket task.response).lose none] holding quiet.waitingTasks
  · have dropped := agree.apart.drop holding
    have held : Function.update hands thread
        (.call task.response (books.docket task.response) none :: rest) thread =
          .call task.response (books.docket task.response) none :: rest :=
      Function.update_self ..
    have exchanged := @Apart.exchange _ _ _ _ _ _
      (.call task.response (books.docket task.response).lose none :: rest) _ thread dropped
      (by simp [Item.key])
    rwa [Function.update_idem] at exchanged
  · intro item different holds
    have apart : ∀ other, item.key = .context other →
        (none : Option (ArenaKey × ContextId)) ≠ some other := fun other _ =>
        (Option.some_ne_none other).symm
    have stillHolds := holds.quiet quiet apart
    exact stillHolds.amend (different _ (List.mem_cons_of_mem _ List.mem_cons_self)) unfinished
      fun _ => id
  · intro new member
    rw [List.mem_singleton.mp member]
    simp [Item.Holds, quiet.responses, opened]
  · rw [quiet.responses]
    intro other otherOpened
    have kept := (agree.kept other otherOpened).quiet quiet
    by_cases same : other = task.response
    · subst same
      rw [Books.docket_withDocket_self]
      exact kept.lose
    · rw [books.docket_withDocket_of_ne _ same]
      exact kept
  · rw [quiet.responses]
    intro other otherOpened notLost own made pending
    by_cases same : other = task.response
    · subst same
      rw [Books.docket_withDocket_self] at notLost
      cases notLost
    · rw [books.docket_withDocket_of_ne _ same] at notLost made
      right
      refine ⟨otherOpened, notLost, made, pending, ?_⟩
      intro stage isItem
      have ofOther := ((agree.kept other otherOpened).made own made).1.response_eq
      simp only [List.mem_cons, Item.task.injEq, List.not_mem_nil, or_false] at isItem
      obtain ⟨rfl, _⟩ | never := isItem
      · exact same ofOther.symm
      · cases never
  · rw [quiet.history, quiet.responses]
    intro own started
    obtain ⟨ownOpened, made⟩ := agree.started own started
    exact ⟨ownOpened, Books.mem_made_of_amended (fun _ => id) made⟩

end Agree

end WorkerMachine.Settling
