import WorkerMachine.Proofs.Settling.Turnover
/-!
# Steps that keep the books

What the atomic steps of a machine do to the hand of the thread that takes them.  The calls of bodies
let contexts wait and run again, whoever's they are, and the books do not mind.
-/

namespace WorkerMachine

open Settling

/-! ## Waiting and running again -/

namespace Arena

variable {arena : Arena} {id asked : ContextId}

/-- A context that runs may wait, and one that waits may run again. -/
theorem similar_transition {next : ContextState}
    (mayMove : ∀ state, arena.state? id = some state → state.canMoveTo next = true →
      Active (some state) ∧ Active (some next)) :
    Similar (arena.state? asked) ((arena.transition id next).2.state? asked) := by
  by_cases same : asked = id
  · subst same
    cases found : arena.state? asked with
    | none =>
      have absent := Option.map_eq_none_iff.mp found
      left
      simp [transition, absent, found]
    | some state =>
      cases allowed : state.canMoveTo next with
      | true =>
        obtain ⟨_, moved⟩ := state?_transition found allowed
        right
        rw [moved]
        exact mayMove state found allowed
      | false =>
        obtain ⟨record, isRecord, rfl⟩ := Option.map_eq_some_iff.mp found
        left
        simp [transition, isRecord, allowed, found]
  · left
    exact (transition_altersOnly arena id next).others asked same

theorem similar_beginWait (arena : Arena) (id asked : ContextId) :
    Similar (arena.state? asked) ((arena.beginWait id).2.state? asked) := by
  unfold beginWait
  split
  · exact .inl rfl
  · apply similar_transition
    intro state _ allowed
    cases state <;> simp [Active, ContextState.canMoveTo] at allowed ⊢

theorem similar_suspend (arena : Arena) (id asked : ContextId) :
    Similar (arena.state? asked) ((arena.suspend id).2.state? asked) := by
  unfold suspend
  split
  · exact .inl rfl
  · exact .inl rfl
  · exact arena.similar_beginWait id asked

theorem similar_resume (arena : Arena) (id asked : ContextId) :
    Similar (arena.state? asked) ((arena.resume id).state? asked) := by
  unfold resume
  split
  · next waits =>
    apply similar_transition
    intro state isState _
    rw [waits] at isState
    cases isState
    exact ⟨.inr rfl, .inl rfl⟩
  · exact .inl rfl

theorem beginWait_of_active (active : Active (arena.state? id)) : (arena.beginWait id).1 = .ok () := by
  unfold beginWait
  obtain isRunning | waits := active
  · obtain ⟨moved, _⟩ := state?_transition isRunning
      (show ContextState.running.canMoveTo .waiting = true from rfl)
    rw [if_neg (by simp [isRunning])]
    simp [moved, Except.map]
  · rw [if_pos waits]

theorem suspend_of_active (active : Active (arena.state? id)) : (arena.suspend id).1 = .ok () := by
  unfold suspend
  split
  · rfl
  · rfl
  · exact beginWait_of_active active

/-- An active context runs once it has been resumed. -/
theorem state?_resume (active : Active (arena.state? id)) :
    (arena.resume id).state? id = some .running := by
  unfold resume
  obtain isRunning | waits := active
  · rw [if_neg (by simp [isRunning])]
    exact isRunning
  · rw [if_pos waits]
    exact (state?_transition waits rfl).2

/-- A context that runs or waits reaches its last state. -/
theorem state?_finish {outcome : WorkerOutcome}
    (active : Active (arena.state? id)) :
    (arena.finish id outcome.lastState).state? id = some outcome.lastState := by
  have mayEnd : ContextState.running.canMoveTo outcome.lastState = true := by
    cases outcome <;> rfl
  exact (state?_transition (state?_resume active) mayEnd).2

end Arena

namespace Settling

variable {machine : Machine}

theorem quiet_alterArena (key : ArenaKey) (change : Arena → Arena)
    {place : Option (ArenaKey × ContextId)}
    (nextId : (machine.arena key).nextId ≤ (change (machine.arena key)).nextId)
    (states : ∀ id, place ≠ some (key, id) →
      Similar ((machine.arena key).state? id) ((change (machine.arena key)).state? id)) :
    Quiet place machine (machine.alterArena key change) := by
  constructor
  · rfl
  · rfl
  · rfl
  · intro asked
    unfold Machine.alterArena
    rw [Machine.arena_setArena]
    split
    · next same =>
      subst same
      exact nextId
    · exact Nat.le_refl _
  · intro asked id different
    unfold Machine.alterArena Machine.stateIn?
    rw [Machine.arena_setArena]
    split
    · next same =>
      subst same
      exact states id different
    · exact .inl rfl

/-- A step that changes nothing that the books tell of. -/
theorem quiet_of_same {later : Machine} (responses : later.responses = machine.responses)
    (history : later.history = machine.history)
    (waitingTasks : later.waitingTasks = machine.waitingTasks)
    (arenas : later.arenas = machine.arenas) : Quiet none machine later := by
  have sameArena : ∀ key, later.arena key = machine.arena key := by
    intro key
    unfold Machine.arena
    rw [arenas]
  constructor
  · exact responses
  · exact history
  · exact waitingTasks
  · intro key
    rw [sameArena]
  · intro key id _
    unfold Machine.stateIn?
    rw [sameArena]
    exact .inl rfl

theorem quiet_of_altersOnly {key : ArenaKey} {change : Arena → Arena} {id : ContextId}
    (alters : (machine.arena key).AltersOnly id (change (machine.arena key))) :
    Quiet (some (key, id)) machine (machine.alterArena key change) := by
  apply quiet_alterArena
  · rw [alters.nextId]
  · intro asked different
    left
    apply alters.others
    rintro rfl
    exact different rfl

end Settling

variable {Answer : Type} {thread : ThreadId} {token rest : Settling.Hand} {task : Task}
  {response : ResponseId} {docket : Docket}

theorem Process.calm_atomically {operation : Machine → Answer × Machine}
    (quiet : ∀ machine, Quiet none machine (operation machine).2) :
    (atomically operation).Stays .settling thread token fun _ => True := by
  apply stays_atomically
  intro machine hands fits _
  obtain ⟨books, agree⟩ := fits
  exact ⟨(quiet machine).proceeds, ⟨books, agree.calm (quiet machine)⟩, trivial⟩

theorem Process.calm_modify {update : Machine → Machine}
    (quiet : ∀ machine, Quiet none machine (update machine)) :
    (modify update).Stays .settling thread token fun _ => True := by
  apply stays_modify _ trivial
  intro machine hands fits _
  obtain ⟨books, agree⟩ := fits
  exact ⟨(quiet machine).proceeds, ⟨books, agree.calm (quiet machine)⟩⟩

theorem Effect.calm_modify {update : Machine → Machine}
    (quiet : ∀ machine, Quiet none machine (update machine)) :
    (modify update).Stays .settling thread token fun _ => True :=
  stays_work (Process.calm_modify quiet)

/-- What never is interrupted and keeps the hand as it is. -/
theorem Effect.calm_modify_follows {update : Machine → Machine}
    {upset : Interruption → Settling.Hand → Prop}
    (quiet : ∀ machine, Quiet none machine (update machine)) :
    (modify update).Follows .settling thread token (fun _ last => last = token) upset :=
  follows_work (Process.Follows.weaken (Process.calm_modify quiet) fun _ _ reached => reached.1)

theorem tally_settles (count : Tallies → Tallies) {upset : Interruption → Settling.Hand → Prop} :
    (tally count).Follows .settling thread token (fun _ last => last = token) upset :=
  Effect.calm_modify_follows fun _ => quiet_of_same rfl rfl rfl rfl

theorem Process.calm_follows_atomically {operation : Machine → Answer × Machine}
    {goal : Answer → Settling.Hand → Prop}
    (quiet : ∀ machine, Quiet none machine (operation machine).2)
    (exchange : ∀ machine books hands, Agree machine books hands → hands thread = token →
      ∃ exchanged, Agree machine books (Function.update hands thread exchanged) ∧
        goal (operation machine).1 exchanged) :
    (atomically operation).Follows .settling thread token goal := by
  apply follows_atomically
  intro machine hands fits holding
  obtain ⟨books, agree⟩ := fits
  obtain ⟨exchanged, agreeAfter, reached⟩ := exchange machine books hands agree holding
  exact ⟨(quiet machine).proceeds, exchanged, ⟨books, agreeAfter.calm (quiet machine)⟩, reached⟩

theorem Settling.quiet_resume (parent : ContextId) (machine : Machine) :
    Quiet none machine (machine.alterArena Machine.ownArena fun records => records.resume parent) := by
  apply quiet_alterArena Machine.ownArena fun records => records.resume parent
  · rw [(Arena.resume_altersOnly _ parent).nextId]
  · intro id _
    exact Arena.similar_resume _ parent id

theorem resumeParent_settles (parent : ContextId) :
    (resumeParent parent).Stays .settling thread token fun _ => True :=
  Process.calm_modify (quiet_resume parent)

/-- When its caller runs again, a call may be forgotten. -/
theorem resumeParent_forgets (parent : ContextId) {front : Settling.Hand}
    {closed : Option Account} :
    (resumeParent parent).Follows .settling thread
      (front ++ .call response docket closed :: rest) fun _ last => last = front ++ rest := by
  apply Process.follows_modify
  intro machine hands fits holding
  obtain ⟨books, agree⟩ := fits
  have quiet := quiet_resume parent machine
  exact ⟨quiet.proceeds, _, ⟨books, (agree.forgetBehind holding).calm quiet⟩, rfl⟩

/-- What is left in hand of a call that is over. -/
def Settling.leftOf (keep : Bool) (response : ResponseId) (docket : Docket)
    (closed : Option Account) (rest : Settling.Hand) : Settling.Hand :=
  if keep then .call response docket closed :: rest else rest

theorem beginWait_settles (keep : Bool) (parent : Context) {upset : Interruption → Settling.Hand → Prop} :
    (Effect.atomically (Machine.inArena parent.arena fun records =>
      records.beginWait parent.id)).Follows .settling thread (.call response docket none :: rest)
      (fun answer last => answer = .ok () ∧ last = .call response docket none :: rest ∨
        ∃ fault, answer = .error fault ∧ ¬KnowsActive parent.place rest ∧
          last = leftOf keep response docket none rest) upset := by
  apply Effect.follows_work
  apply Process.calm_follows_atomically
  · intro machine
    apply quiet_alterArena parent.arena fun records => (records.beginWait parent.id).2
    · rw [(Arena.beginWait_altersOnly _ parent.id).nextId]
    · intro id _
      exact Arena.similar_beginWait _ parent.id id
  · intro machine books hands agree holding
    unfold Machine.inArena
    cases answered : ((machine.arena parent.arena).beginWait parent.id).1 with
    | ok _ =>
      refine ⟨.call response docket none :: rest, ?_, .inl ⟨rfl, rfl⟩⟩
      rwa [← holding, Function.update_eq_self]
    | error fault =>
      have left : Agree machine books
          (Function.update hands thread (leftOf keep response docket none rest)) := by
        cases keep with
        | true =>
          have same : leftOf true response docket none rest = hands thread := holding.symm
          rwa [same, Function.update_eq_self]
        | false => exact agree.forget holding fun _ _ never => by cases never
      refine ⟨_, left, .inr ⟨fault, rfl, ?_, rfl⟩⟩
      rintro ⟨item, member, tells⟩
      have known : KnowsActive parent.place (hands thread) := by
        rw [holding]
        exact ⟨item, List.mem_cons_of_mem _ member, tells⟩
      have isOk : ((machine.arena parent.arena).beginWait parent.id).1 = .ok () :=
        Arena.beginWait_of_active (agree.isActive known)
      rw [isOk] at answered
      cases answered

/-- A parent is suspended, unless it is in a state that cannot be left for waiting. -/
theorem suspend_settles (parent : ContextId) :
    (Process.atomically (Machine.inArena Machine.ownArena fun records =>
      records.suspend parent)).Stays .settling thread token fun answer =>
        answer = .ok () ∨
          ∃ fault, answer = .error fault ∧ ¬KnowsActive (Machine.ownArena, parent) token := by
  apply Process.stays_atomically
  intro machine hands fits holding
  obtain ⟨books, agree⟩ := fits
  have quiet : Quiet none machine (machine.alterArena Machine.ownArena fun records =>
      (records.suspend parent).2) := by
    apply quiet_alterArena Machine.ownArena fun records => (records.suspend parent).2
    · rw [(Arena.suspend_altersOnly _ parent).nextId]
    · intro id _
      exact Arena.similar_suspend _ parent id
  refine ⟨quiet.proceeds, ⟨books, agree.calm quiet⟩, ?_⟩
  unfold Machine.inArena
  cases answered : ((machine.arena Machine.ownArena).suspend parent).1 with
  | ok _ => exact .inl rfl
  | error fault =>
    refine .inr ⟨fault, rfl, fun known => ?_⟩
    rw [← holding] at known
    rw [Arena.suspend_of_active (agree.isActive known)] at answered
    cases answered

/-! ## Contexts -/

theorem Context.release_settles (context : Context) {active : Bool} :
    context.release.Follows .settling thread (.context context.place active :: rest)
      fun _ last => last = rest := by
  apply Process.follows_modify
  intro machine hands fits holding
  obtain ⟨books, agree⟩ := fits
  have quiet : Quiet (some context.place) machine (machine.alterArena context.arena fun records =>
      records.release context.id) :=
    quiet_of_altersOnly (Arena.release_altersOnly _ context.id)
  exact ⟨quiet.proceeds, rest, ⟨books, agree.release holding quiet⟩, rfl⟩

theorem Settling.quiet_register (machine : Machine) (key : ArenaKey) (record : ContextRecord) :
    Quiet (some (key, (machine.arena key).nextId)) machine
      (machine.alterArena key fun records => (records.register record).2) := by
  apply quiet_alterArena key fun records => (records.register record).2
  · exact Nat.le_succ _
  · intro id different
    left
    unfold Arena.state?
    rw [Arena.record?_register, if_neg]
    rintro rfl
    exact different rfl

theorem Settling.lt_nextId_register (machine : Machine) (key : ArenaKey) (record : ContextRecord) :
    (machine.arena key).nextId <
      ((machine.alterArena key fun records => (records.register record).2).arena key).nextId := by
  unfold Machine.alterArena
  rw [Machine.arena_setArena, if_pos rfl]
  exact Nat.lt_succ_self _

theorem Settling.holds_register (machine : Machine) (books : Books) (key : ArenaKey)
    (record : ContextRecord) (active : Bool) (runs : active = true → record.state = .running) :
    Item.Holds (machine.alterArena key fun records => (records.register record).2) books
      (.context (key, (machine.arena key).nextId) active) := by
  apply And.intro (lt_nextId_register machine key record)
  intro isActive
  left
  rw [Machine.stateIn?_register, if_pos ⟨rfl, rfl⟩, runs isActive]

theorem registerContext_settles (key : ArenaKey) (record : ContextRecord) (active : Bool)
    (runs : active = true → record.state = .running)
    {upset : Interruption → Settling.Hand → Prop} :
    (registerContext key record).Follows .settling thread token
      (fun id last => last = .context (key, id) active :: token) upset := by
  apply Effect.follows_atomically
  intro machine hands fits holding
  obtain ⟨books, agree⟩ := fits
  have quiet := quiet_register machine key record
  have created := agree.create holding rfl quiet (holds_register machine books key record active runs)
  exact ⟨quiet.proceeds, _, ⟨books, created⟩, rfl⟩

theorem registerTask_settles {worker : Worker} {inCaller : Bool} {locals : RegisterFile}
    (label : String)
    (seeded : Marshalling.seed worker.locals docket.unit.params docket.source docket.arguments =
      .ok locals)
    (planned : docket.made.map Task.part ++ [(worker, inCaller)] <+: docket.plan)
    {upset : Interruption → Settling.Hand → Prop} :
    (registerContext docket.parent.arena ⟨some docket.parent.id, .created, label⟩).Follows .settling
      thread (.call response docket none :: rest)
      (fun id last => ∃ task,
        task = docket.unit.task worker docket.parent response inCaller locals id ∧
          last = .task task .created :: .call response (docket.make task) none :: rest) upset := by
  apply Effect.follows_atomically
  intro machine hands fits holding
  obtain ⟨books, agree⟩ := fits
  have quiet := quiet_register machine docket.parent.arena ⟨some docket.parent.id, .created, label⟩
  have created := agree.create holding rfl quiet
    (holds_register machine books docket.parent.arena ⟨some docket.parent.id, .created, label⟩ false
      nofun)
  have held := agree.held thread (.call response docket none)
  rw [holding] at held
  obtain ⟨opened, isDocket, _⟩ := held List.mem_cons_self
  have kept := agree.kept response opened
  rw [isDocket] at kept
  let task := docket.unit.task worker docket.parent response inCaller locals
    (machine.arena docket.parent.arena).nextId
  have makes : docket.Makes response task := ⟨rfl, seeded⟩
  have isNew : ∀ other ∈ docket.made, other.context.id ≠ task.context.id := by
    intro other isMade
    exact Nat.ne_of_lt (kept.made other isMade).2
  have isCreated : (machine.alterArena docket.parent.arena fun records =>
      (records.register ⟨some docket.parent.id, .created, label⟩).2).stateIn? task.context.arena
        task.context.id = some .created := by
    rw [Machine.stateIn?_register, if_pos ⟨rfl, rfl⟩]
  have notStarted : .started task ∉ machine.history := by
    intro started
    have isMade : task ∈ (books.docket response).made := (agree.started task started).2
    rw [isDocket] at isMade
    exact Nat.lt_irrefl _ (kept.made task isMade).2
  have alsoPlanned : (docket.make task).made.map Task.part <+: docket.plan := by
    unfold Docket.make
    rw [List.map_append]
    exact planned
  have adopted := created.adopt (Function.update_self ..) makes alsoPlanned isNew isCreated
    notStarted
  rw [Function.update_idem] at adopted
  exact ⟨quiet.proceeds, _, ⟨_, adopted⟩, task, rfl, rfl⟩

end WorkerMachine
