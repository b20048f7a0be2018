import WorkerMachine.Proofs.Balance.Hands
/-!
# Accounts that are kept

Between any two steps of any threads the hands of the threads account for what the machine is like.  A
step of a thread exchanges the hand of the thread for another one, and what it has to say for itself
depends only on the part of the machine that it changes.
-/

namespace WorkerMachine

namespace Balance

/-- The hands of the threads account for what has become of a machine since it was like `base`. -/
structure Accounts (program : Program) (base machine : Machine) (hands : ThreadId → Hand) : Prop where
  placed : ∃ places, Placed program base machine (fun thread => (hands thread).held) places
  calls : ∀ thread, ∀ call ∈ (hands thread).calls, machine.Collects call.1 call.2
  /-- A worker that is left to somebody does not run on the path of its caller. -/
  scheduled : ∀ task ∈ machine.waitingTasks, task.context.inCaller = false
  claimed : ClaimedOnce machine fun thread => (hands thread).claims
  shared : Shared program base machine fun thread => (hands thread).share

/-- A change of the machine that goes with an exchange of the hand of one thread. -/
def Exchanges (program : Program) (base machine later : Machine) (thread : ThreadId)
    (before after : Hand) : Prop :=
  ∀ hands, Accounts program base machine hands → hands thread = before →
    Accounts program base later (Function.update hands thread after)

/-- What a thread with a hand knows about a machine. -/
def Known (program : Program) (base machine : Machine) (token : Hand) : Prop :=
  ∃ hands thread, Accounts program base machine hands ∧ hands thread = token

variable {program : Program} {base machine later : Machine} {hands : ThreadId → Hand}
  {thread : ThreadId} {token after : Hand} {id : ContextId} {holding : Holding}

theorem Exchanges.trans {last : Machine} {between : Hand}
    (first : Exchanges program base machine later thread token between)
    (second : Exchanges program base later last thread between after) :
    Exchanges program base machine last thread token after := by
  intro hands accounts isToken
  have accountsAfter := second _ (first hands accounts isToken) (Function.update_self ..)
  rwa [Function.update_idem] at accountsAfter

/-! ## What a thread knows -/

theorem Known.state? (known : Known program base machine token)
    (isHeld : token.held id = some holding) : machine.state? id = some holding.state := by
  obtain ⟨hands, thread, accounts, rfl⟩ := known
  obtain ⟨places, placed⟩ := accounts.placed
  exact placed.state?_of_held isHeld

theorem Known.task (known : Known program base machine token)
    (isHeld : token.held id = some holding) {task : Task} (isTask : holding.task? = some task) :
    task.context.id = id ∧ base.state? id = none ∧ program.Prepares task ∧
      machine.Awaits task := by
  obtain ⟨hands, thread, accounts, rfl⟩ := known
  obtain ⟨places, placed⟩ := accounts.placed
  exact placed.task_of_held isHeld isTask

theorem Known.prepared (known : Known program base machine token)
    (isHeld : token.held id = some holding) {task : Task} (isTask : holding.task? = some task) :
    base.state? id = none ∧ program.Prepares task :=
  ⟨(known.task isHeld isTask).2.1, (known.task isHeld isTask).2.2.1⟩

/-- The name of the next context is not that of any context in hand or in the beginning. -/
theorem Known.nextId (known : Known program base machine token) :
    token.held (machine.arena Machine.ownArena).nextId = none ∧
      base.state? (machine.arena Machine.ownArena).nextId = none := by
  obtain ⟨hands, thread, accounts, rfl⟩ := known
  obtain ⟨places, placed⟩ := accounts.placed
  obtain ⟨isElsewhere, isNew⟩ := placed.elsewhere_of_none (placed.bounded _ (Nat.le_refl _))
  refine ⟨Option.eq_none_iff_forall_ne_some.mpr fun its isHeld => ?_, isNew⟩
  have isPlace := (placed.held thread _ its).mp isHeld
  rw [isElsewhere] at isPlace
  cases isPlace

theorem Known.scheduled (known : Known program base machine token) :
    ∀ task ∈ machine.waitingTasks, task.context.inCaller = false := by
  obtain ⟨hands, thread, accounts, rfl⟩ := known
  exact accounts.scheduled

/-- A task that waits is in nobody's hand. -/
theorem Known.free (known : Known program base machine token) {task : Task}
    (waits : task ∈ machine.waitingTasks) : token.held task.context.id = none := by
  obtain ⟨hands, thread, accounts, rfl⟩ := known
  obtain ⟨places, placed⟩ := accounts.placed
  have isWaiting := (placed.waiting task.context.id task).mpr ⟨waits, rfl⟩
  refine Option.eq_none_iff_forall_ne_some.mpr fun its isHeld => ?_
  have isPlace := (placed.held thread _ its).mp isHeld
  rw [isWaiting] at isPlace
  cases isPlace

/-- The inits of packages that are claimed have not come to an end. -/
theorem Known.claimed (known : Known program base machine token) {name : String}
    (member : name ∈ token.claims) : machine.gate.stage name = .running := by
  obtain ⟨hands, thread, accounts, rfl⟩ := known
  exact accounts.claimed.running thread name member

theorem Known.collects (known : Known program base machine token) {call : ResponseId × Layout}
    (member : call ∈ token.calls) : machine.Collects call.1 call.2 := by
  obtain ⟨hands, thread, accounts, rfl⟩ := known
  exact accounts.calls thread call member

/-! ## Exchanges -/

/-- Accounts are put together from those of the single parts. -/
theorem Accounts.exchange (accounts : Accounts program base machine hands)
    (placed : ∃ places, Placed program base later
      (Function.update (fun thread => (hands thread).held) thread after.held) places)
    (keeps : machine.KeepsCollecting later)
    (calls : ∀ call ∈ after.calls, later.Collects call.1 call.2)
    (scheduled : ∀ task ∈ later.waitingTasks, task.context.inCaller = false)
    (claimed : ClaimedOnce later
      (Function.update (fun thread => (hands thread).claims) thread after.claims))
    (shared : Shared program base later
      (Function.update (fun thread => (hands thread).share) thread after.share)) :
    Accounts program base later (Function.update hands thread after) where
  placed := by
    have part := Function.comp_update Hand.held hands thread after
    unfold Function.comp at part
    rw [part]
    exact placed
  calls := by
    intro owner call member
    by_cases isThread : owner = thread
    · subst isThread
      rw [Function.update_self] at member
      exact calls call member
    · rw [Function.update_of_ne isThread] at member
      exact keeps _ _ (accounts.calls owner call member)
  scheduled := scheduled
  claimed := by
    have part := Function.comp_update Hand.claims hands thread after
    unfold Function.comp at part
    rw [part]
    exact claimed
  shared := by
    have part := Function.comp_update Hand.share hands thread after
    unfold Function.comp at part
    rw [part]
    exact shared

theorem update_part {Part : Type} (part : Hand → Part) (isToken : hands thread = token)
    (same : part after = part token) :
    Function.update (fun thread => part (hands thread)) thread (part after) =
      fun thread => part (hands thread) := by
  rw [Function.update_eq_self_iff, same, isToken]

namespace Accounts

variable (accounts : Accounts program base machine hands) (isToken : hands thread = token)

include accounts isToken

theorem same_placed (same : after.held = token.held) (states : later.state? = machine.state?)
    (nextId : (machine.arena Machine.ownArena).nextId ≤ (later.arena Machine.ownArena).nextId)
    (waiting : later.waitingTasks = machine.waitingTasks) (keeps : machine.KeepsCollecting later) :
    ∃ places, Placed program base later
      (Function.update (fun thread => (hands thread).held) thread after.held) places := by
  obtain ⟨places, placed⟩ := accounts.placed
  rw [update_part Hand.held isToken same]
  exact ⟨places, placed.of_same states waiting nextId keeps⟩

theorem same_calls (same : after.calls ⊆ token.calls) (keeps : machine.KeepsCollecting later) :
    ∀ call ∈ after.calls, later.Collects call.1 call.2 :=
  fun call member => keeps _ _ (accounts.calls thread call (isToken ▸ same member))

omit isToken in
theorem same_scheduled (waiting : later.waitingTasks = machine.waitingTasks) :
    ∀ task ∈ later.waitingTasks, task.context.inCaller = false := by
  rw [waiting]
  exact accounts.scheduled

theorem same_claimed (same : after.claims = token.claims)
    (stage : later.gate.stage = machine.gate.stage) :
    ClaimedOnce later (Function.update (fun thread => (hands thread).claims) thread after.claims) := by
  rw [update_part Hand.claims isToken same]
  exact (ClaimedOnce.of_same accounts.claimed stage).2

theorem same_shared (same : after.share = token.share) (tallies : later.tallies = machine.tallies)
    (history : later.history = machine.history) (stage : later.gate.stage = machine.gate.stage) :
    Shared program base later
      (Function.update (fun thread => (hands thread).share) thread after.share) := by
  rw [update_part Hand.share isToken same]
  exact accounts.shared.of_same tallies history stage

theorem added_share {change : Tilt} (same : after.share = token.share + change)
    (tallies : ∃ spent, later.tallies = machine.tallies.plus spent)
    (history : machine.history <:+ later.history)
    (settled : program.initialized machine.gate ⊆ program.initialized later.gate)
    (tilted : later.tilt program = machine.tilt program + change) :
    Shared program base later
      (Function.update (fun thread => (hands thread).share) thread after.share) := by
  rw [same, ← isToken]
  exact accounts.shared.add tallies history settled tilted

end Accounts

/-- A change that concerns counts and history at most. -/
structure Counts (machine later : Machine) : Prop where
  states : later.state? = machine.state?
  nextId : (machine.arena Machine.ownArena).nextId ≤ (later.arena Machine.ownArena).nextId
  waiting : later.waitingTasks = machine.waitingTasks
  responses : later.responses = machine.responses
  stage : later.gate.stage = machine.gate.stage

/-- A change that concerns nothing that is accounted for. -/
structure Immaterial (machine later : Machine) : Prop extends Counts machine later where
  tallies : later.tallies = machine.tallies
  history : later.history = machine.history

theorem Counts.exchanges (counts : Counts machine later) {change : Tilt}
    (tallies : ∃ spent, later.tallies = machine.tallies.plus spent)
    (history : machine.history <:+ later.history)
    (tilted : later.tilt program = machine.tilt program + change) :
    Exchanges program base machine later thread token (token.add change) := by
  intro hands accounts isToken
  have keeps := Machine.keepsCollecting_of_same counts.responses
  exact accounts.exchange
    (accounts.same_placed isToken rfl counts.states counts.nextId counts.waiting keeps) keeps
    (accounts.same_calls isToken (List.Subset.refl _) keeps)
    (accounts.same_scheduled counts.waiting)
    (accounts.same_claimed isToken rfl counts.stage)
    (accounts.added_share isToken rfl tallies history
      (Program.initialized_eq_of_stage counts.stage).ge tilted)

theorem Immaterial.accounts (immaterial : Immaterial machine later)
    (accounts : Accounts program base machine hands) :
    Accounts program base later hands := by
  obtain ⟨places, placed⟩ := accounts.placed
  have keeps := Machine.keepsCollecting_of_same immaterial.responses
  exact
    { placed := ⟨places,
        placed.of_same immaterial.states immaterial.waiting immaterial.nextId keeps⟩
      calls := fun thread call member => keeps _ _ (accounts.calls thread call member)
      scheduled := accounts.same_scheduled immaterial.waiting
      claimed := (ClaimedOnce.of_same accounts.claimed immaterial.stage).2
      shared := accounts.shared.of_same immaterial.tallies immaterial.history immaterial.stage }

theorem Immaterial.exchanges (immaterial : Immaterial machine later) :
    Exchanges program base machine later thread token token := by
  rintro hands accounts rfl
  rw [Function.update_eq_self]
  exact immaterial.accounts accounts

/-- Contexts come into the hand of a thread, change there, or leave it. -/
theorem exchanges_hold {next : Option Holding}
    (placed : ∀ hands places, Placed program base machine hands places → hands thread = token.held →
      ∃ places, Placed program base later
        (Function.update hands thread (Function.update (hands thread) id next)) places)
    (scheduled : (∀ task ∈ machine.waitingTasks, task.context.inCaller = false) →
      ∀ task ∈ later.waitingTasks, task.context.inCaller = false)
    (responses : later.responses = machine.responses) (tallies : later.tallies = machine.tallies)
    (history : later.history = machine.history) (stage : later.gate.stage = machine.gate.stage) :
    Exchanges program base machine later thread token (token.hold id next) := by
  intro hands accounts isToken
  obtain ⟨places, wasPlaced⟩ := accounts.placed
  have isHeld : (hands thread).held = token.held := by rw [isToken]
  obtain ⟨placesAfter, isPlaced⟩ := placed _ places wasPlaced isHeld
  rw [isHeld] at isPlaced
  have keeps := Machine.keepsCollecting_of_same responses
  exact accounts.exchange ⟨placesAfter, isPlaced⟩ keeps
    (accounts.same_calls isToken (List.Subset.refl _) keeps) (scheduled accounts.scheduled)
    (accounts.same_claimed isToken rfl stage)
    (accounts.same_shared isToken rfl tallies history stage)

theorem exchanges_enter (record : ContextRecord) :
    Exchanges program base machine
      (machine.setArena Machine.ownArena ((machine.arena Machine.ownArena).register record).2) thread
      token (token.hold (machine.arena Machine.ownArena).nextId (some ⟨record.state, none⟩)) :=
  exchanges_hold (fun _ _ placed _ => placed.enter record) id rfl rfl rfl rfl

theorem exchanges_alter {arena : Arena} (new : Holding)
    (isHeld : token.held id = some holding)
    (alters : (machine.arena Machine.ownArena).AltersOnly id arena)
    (isState : arena.state? id = some new.state)
    (tasks : ∀ task, new.task? = some task → holding.task? = some task ∨
      task.context.id = id ∧ base.state? id = none ∧ program.Prepares task ∧
        machine.Awaits task) :
    Exchanges program base machine (machine.setArena Machine.ownArena arena) thread token
      (token.hold id (some new)) :=
  exchanges_hold (fun _ _ placed same => placed.alter (same ▸ isHeld) alters isState tasks)
    (fun scheduled => scheduled) rfl rfl rfl rfl

/-- A context in hand is forgotten that has come in the course of the run. -/
theorem exchanges_leave (isHeld : token.held id = some holding) (isNew : base.state? id = none) :
    Exchanges program base machine
      (machine.setArena Machine.ownArena ((machine.arena Machine.ownArena).release id)) thread token
      (token.hold id none) :=
  exchanges_hold (fun _ _ placed same => placed.leave (same ▸ isHeld) isNew)
    (fun scheduled => scheduled) rfl rfl rfl rfl

/-- A step that leaves everything alone but the tasks that wait. -/
structure Queues (machine later : Machine) : Prop where
  arenas : later.arenas = machine.arenas
  responses : later.responses = machine.responses
  tallies : later.tallies = machine.tallies
  history : later.history = machine.history
  gate : later.gate = machine.gate

theorem Queues.arena (queues : Queues machine later) : later.arena = machine.arena := by
  unfold Machine.arena
  rw [queues.arenas]

theorem Queues.state? (queues : Queues machine later) : later.state? = machine.state? := by
  unfold Machine.state?
  rw [queues.arena]

theorem Queues.immaterial (queues : Queues machine later)
    (waiting : later.waitingTasks = machine.waitingTasks) : Immaterial machine later :=
  ⟨⟨queues.state?, by rw [queues.arena], waiting, queues.responses, by rw [queues.gate]⟩,
    queues.tallies, queues.history⟩

/-- A task in hand is left to wait for somebody. -/
theorem Queues.offers (queues : Queues machine later) {task : Task}
    (isHeld : token.held task.context.id = some ⟨.runnable, some task⟩)
    (isScheduled : task.context.inCaller = false)
    (perm : later.waitingTasks.Perm (task :: machine.waitingTasks)) :
    Exchanges program base machine later thread token (token.hold task.context.id none) :=
  exchanges_hold (fun _ _ placed same => placed.offer (same ▸ isHeld) queues.state?
    (by rw [queues.arena]) queues.responses perm)
    (fun scheduled other member => by
      rcases List.mem_cons.mp (perm.subset member) with rfl | waits
      · exact isScheduled
      · exact scheduled other waits)
    queues.responses queues.tallies queues.history (by rw [queues.gate])

theorem Queues.takes (queues : Queues machine later) {task : Task}
    (perm : machine.waitingTasks.Perm (task :: later.waitingTasks)) :
    Exchanges program base machine later thread token
      (token.hold task.context.id (some ⟨.runnable, some task⟩)) :=
  exchanges_hold (fun _ _ placed _ => placed.take queues.state? (by rw [queues.arena])
    queues.responses perm)
    (fun scheduled other member => scheduled other (perm.symm.subset (List.mem_cons_of_mem _ member)))
    queues.responses queues.tallies queues.history (by rw [queues.gate])

/-- A change that concerns responses at most. -/
theorem exchanges_responses (states : later.state? = machine.state?)
    (nextId : (machine.arena Machine.ownArena).nextId ≤ (later.arena Machine.ownArena).nextId)
    (waiting : later.waitingTasks = machine.waitingTasks) (tallies : later.tallies = machine.tallies)
    (history : later.history = machine.history) (stage : later.gate.stage = machine.gate.stage)
    (keeps : machine.KeepsCollecting later)
    (collects : ∀ call ∈ after.calls, call ∈ token.calls ∨ later.Collects call.1 call.2)
    (held : after.held = token.held) (claims : after.claims = token.claims)
    (share : after.share = token.share) :
    Exchanges program base machine later thread token after := by
  intro hands accounts isToken
  refine accounts.exchange (accounts.same_placed isToken held states nextId waiting keeps) keeps ?_
    (accounts.same_scheduled waiting) (accounts.same_claimed isToken claims stage)
    (accounts.same_shared isToken share tallies history stage)
  intro call member
  rcases collects call member with wasCall | isNew
  · exact accounts.same_calls isToken (List.Subset.refl _) keeps call wasCall
  · exact isNew

theorem exchanges_gate {gate : Gate} {change : Tilt}
    (claimed : ∀ hands : ThreadId → List String, ClaimedOnce machine hands →
      hands thread = token.claims → ClaimedOnce { machine with gate := gate }
        (Function.update hands thread after.claims))
    (settled : program.initialized machine.gate ⊆ program.initialized gate)
    (tilted : { machine with gate := gate }.tilt program = machine.tilt program + change)
    (held : after.held = token.held) (calls : after.calls = token.calls)
    (share : after.share = token.share + change) :
    Exchanges program base machine { machine with gate := gate } thread token after := by
  intro hands accounts isToken
  have keeps : machine.KeepsCollecting { machine with gate := gate } := fun _ _ => id
  exact accounts.exchange (accounts.same_placed isToken held rfl (Nat.le_refl _) rfl keeps) keeps
    (accounts.same_calls isToken (calls ▸ List.Subset.refl _) keeps)
    (accounts.same_scheduled rfl) (claimed _ accounts.claimed (by rw [isToken]))
    (accounts.added_share isToken share ⟨{}, rfl⟩ (List.suffix_refl _) settled tilted)

end Balance

end WorkerMachine
