import WorkerMachine.Proofs.Invocation.Waiting
/-!
# The mark of a parent with several invocations

Any number of invocations may be begun on one parent, and each is joined or dropped when its holder
likes.  They all share the one state that the arena keeps of the parent: the start of a join marks the
parent as waiting, and the end of a join and the drop of a handle let it run again, whoever else joins
it at that time.  So the mark tells what came last, not whether somebody joins: a parent waits if a join
has started since the last join ended and the last handle was dropped.
-/

namespace WorkerMachine

/-! ## Handles of one parent -/

/-- What the holders of the invocations of a parent do.  Handles are numbered in the order in which
they are begun. -/
inductive HandleEvent where
  /-- An invocation is begun, and there is one more handle. -/
  | begins
  /-- The join of a handle marks the parent. -/
  | startsJoin (handle : Nat)
  /-- The join of a handle lets the parent run again. -/
  | endsJoin (handle : Nat)
  /-- A handle is dropped: by whoever gives it up, or at the end of its join. -/
  | drops (handle : Nat)
  deriving DecidableEq, Repr

inductive HandlePhase where
  | begun
  | joining
  | joined
  | dropped
  deriving DecidableEq, Repr

/-- What has become of a handle by some events, the latest of which comes first. -/
def HandleEvent.phase? : List HandleEvent → Nat → Option HandlePhase
  | [], _ => none
  | begins :: earlier, asked =>
    if asked = earlier.count begins then some .begun else phase? earlier asked
  | startsJoin handle :: earlier, asked =>
    if asked = handle then some .joining else phase? earlier asked
  | endsJoin handle :: earlier, asked =>
    if asked = handle then some .joined else phase? earlier asked
  | drops handle :: earlier, asked =>
    if asked = handle then some .dropped else phase? earlier asked

def HandleEvent.Joins (events : List HandleEvent) (handle : Nat) : Prop :=
  phase? events handle = some .joining

/-- A join has started since the last join ended and the last handle was dropped. -/
def HandleEvent.marks : List HandleEvent → Bool
  | [] => false
  | begins :: earlier => marks earlier
  | startsJoin _ :: _ => true
  | endsJoin _ :: _ | drops _ :: _ => false

/-- No join ends and no handle is dropped while another handle is being joined. -/
def HandleEvent.OneByOne : List HandleEvent → Prop
  | [] => True
  | endsJoin handle :: earlier | drops handle :: earlier =>
    (∀ other, Joins earlier other → other = handle) ∧ OneByOne earlier
  | begins :: earlier | startsJoin _ :: earlier => OneByOne earlier

namespace Machine

/-- Mark the parent of an invocation, as the first step of a join does. -/
def suspendParent (parent : ContextId) (machine : Machine) : Except Fault Unit × Machine :=
  Machine.inArena ownArena (fun records => records.suspend parent) machine

def resumeParent (parent : ContextId) (machine : Machine) : Machine :=
  Machine.alterArena ownArena (fun records => records.resume parent) machine

/-- From a machine on which nothing has been begun on a parent, some events lead to another one.
Between the events anything may happen that leaves the state of the parent as it is. -/
inductive Handling (parent : ContextId) (machine : Machine) : List HandleEvent → Machine → Prop
  | start : Handling parent machine [] machine
  | elsewhere {events : List HandleEvent} {between later : Machine} :
      Handling parent machine events between → later.state? parent = between.state? parent →
      Handling parent machine events later
  | begins {events : List HandleEvent} {between : Machine} :
      Handling parent machine events between → Handling parent machine (.begins :: events) between
  | startsJoin {events : List HandleEvent} {between : Machine} {handle : Nat} :
      Handling parent machine events between →
      HandleEvent.phase? events handle = some .begun →
      (between.suspendParent parent).1 = .ok () →
      Handling parent machine (.startsJoin handle :: events) (between.suspendParent parent).2
  | endsJoin {events : List HandleEvent} {between : Machine} {handle : Nat} :
      Handling parent machine events between →
      HandleEvent.phase? events handle = some .joining →
      Handling parent machine (.endsJoin handle :: events) (between.resumeParent parent)
  | drops {events : List HandleEvent} {between : Machine} {handle : Nat} :
      Handling parent machine events between →
      HandleEvent.phase? events handle = some .begun ∨
        HandleEvent.phase? events handle = some .joined →
      Handling parent machine (.drops handle :: events) (between.resumeParent parent)

end Machine

/-! ## The program goes through these events -/

theorem resumeParent_eq (parent : ContextId) :
    resumeParent parent = Process.modify (Machine.resumeParent parent) :=
  rfl

theorem Invocation.abandon_eq (invocation : Invocation) :
    invocation.abandon =
      (Process.modify (Machine.resumeParent invocation.parent)).bind fun _ =>
        match invocation.callerTask with
        | some task => task.dispose
        | none => .done () :=
  rfl

/-- A join marks the parent, settles the invocation, after which the parent runs again, and drops the
handle.  A join that may not mark the parent drops the handle at once. -/
theorem Station.join_eq (station : Station) (invocation : Invocation) (target : RegisterFile)
    (indices : List Nat) :
    station.join invocation target indices =
      (Process.atomically (Machine.suspendParent invocation.parent)).bind fun
        | .error fault =>
          invocation.abandon.bind fun _ => .done (.error (.fault fault), target)
        | .ok () =>
          ((station.settle invocation).run.bind fun
            | .ok outcome => deliver invocation outcome target indices
            | .error interruption => .done (.error interruption, target)).bind fun answer =>
              (Invocation.abandon { invocation with callerTask := none }).bind fun _ =>
                .done answer := by
  unfold join
  congr 1
  funext suspended
  cases suspended with
  | error fault => rfl
  | ok _ =>
    change Process.bind _ _ = _
    rw [Process.bind_assoc]
    congr 1
    funext settled
    cases settled <;> rfl

/-- A property of a machine that is kept by whatever spares the state of a context. -/
def Machine.Leaves (parent : ContextId) (state : Option ContextState) (machine : Machine) : Prop :=
  parent < (machine.arena Machine.ownArena).nextId ∧ machine.state? parent = state

section Beginning

variable {parent : ContextId} {state : Option ContextState}

theorem Machine.Leaves.alterArena {machine : Machine} (leaves : machine.Leaves parent state)
    (key : ArenaKey) {id : ContextId} {change : Arena → Arena}
    (alters : ∀ arena : Arena, arena.AltersOnly id (change arena))
    (apart : key = Machine.ownArena → id ≠ parent) :
    (machine.alterArena key change).Leaves parent state := by
  obtain ⟨known, isState⟩ := leaves
  refine ⟨?_, ?_⟩
  · rw [machine.nextId_alterArena key alters]
    exact known
  · refine (machine.stateIn?_alterArena_of_ne key alters fun same => ?_).trans isState
    obtain ⟨sameArena, sameId⟩ := Prod.mk.inj same
    exact apart sameArena.symm sameId.symm

theorem registerContext_leaves (key : ArenaKey) (record : ContextRecord) :
    (registerContext key record).Keeps (Machine.Leaves parent state)
      fun id => key = Machine.ownArena → id ≠ parent := by
  refine Effect.stays_work (Process.stays_atomically fun machine hands leaves _ => ?_)
  obtain ⟨known, isState⟩ : machine.Leaves parent state := leaves
  refine ⟨trivial, ⟨?_, ?_⟩, ?_⟩
  · exact Nat.lt_of_lt_of_le known (machine.nextId_le_register key record _)
  · refine (machine.stateIn?_register key record Machine.ownArena parent).trans ?_
    rw [if_neg]
    · exact isState
    · rintro ⟨rfl, rfl⟩
      exact Nat.lt_irrefl _ known
  · rintro rfl
    exact Nat.ne_of_gt known

theorem alterArena_leaves (key : ArenaKey) {id : ContextId} {change : Arena → Arena}
    (alters : ∀ arena : Arena, arena.AltersOnly id (change arena))
    (apart : key = Machine.ownArena → id ≠ parent) :
    (Process.modify (Machine.alterArena key change)).Keeps (Machine.Leaves parent state)
      fun _ => True :=
  Process.stays_modify (fun _ _ leaves _ => ⟨trivial, leaves.alterArena key alters apart⟩) trivial

theorem dispose_leaves {task : Task}
    (apart : task.context.arena = Machine.ownArena → task.context.id ≠ parent) :
    task.dispose.Keeps (Machine.Leaves parent state) fun _ => True := by
  have handedIn : (Process.modify fun machine : Machine => (machine.contribute task.response
      task.context.id (.faulted task.droppedFault) task.context.results).2).Keeps
        (Machine.Leaves parent state) fun _ => True :=
    Process.stays_modify (fun _ _ leaves _ => ⟨trivial, leaves⟩) trivial
  exact handedIn.bind fun _ _ =>
    alterArena_leaves _ (fun records => records.release_altersOnly _) apart

theorem modify_leaves {update : Machine → Machine}
    (spared : ∀ machine, (update machine).arenas = machine.arenas) :
    (Effect.modify update).Keeps (Machine.Leaves parent state) fun _ => True := by
  refine Effect.stays_work (Process.stays_modify (fun machine _ leaves _ => ⟨trivial, ?_⟩) trivial)
  have sameArena : (update machine).arena Machine.ownArena = machine.arena Machine.ownArena := by
    unfold Machine.arena
    rw [spared]
  change Machine.Leaves parent state (update machine)
  unfold Machine.Leaves Machine.state?
  rw [sameArena]
  exact leaves

theorem prepareTask_leaves (unit : Callable) (worker : Worker) (caller : Context)
    (source : RegisterFile) (arguments : List Nat) (response : ResponseId) (inCaller : Bool) :
    (prepareTask unit worker caller source arguments response inCaller).Keeps
      (Machine.Leaves parent state)
      fun task => task.context.arena = Machine.ownArena → task.context.id ≠ parent := by
  unfold prepareTask
  refine Effect.Stays.bind (Effect.stays_ofAccess fun _ _ => trivial) fun locals _ => ?_
  refine Effect.Stays.bind (registerContext_leaves _ _) fun id apart => ?_
  refine Effect.Stays.bind (modify_leaves fun _ => rfl) fun _ _ => ?_
  refine Effect.Stays.orElseRun ?_
    (alterArena_leaves _ (fun records => records.release_altersOnly _) apart)
  have moved : (moveContext caller.arena id .runnable).Keeps (Machine.Leaves parent state)
      fun _ => True := by
    refine Effect.stays_work (Process.stays_atomically fun machine _ leaves _ => ?_)
    refine ⟨trivial, ?_, trivial⟩
    exact Machine.Leaves.alterArena leaves caller.arena
      (fun records => records.transition_altersOnly id .runnable) apart
  refine Effect.Stays.bind moved fun _ _ => ?_
  exact Effect.Stays.bind (Effect.stays_ofExcept fun _ _ => trivial) fun _ _ =>
    Effect.stays_pure apart

namespace Station

variable {station : Station}

/-- Unless a scheduler runs its tasks at once, it leaves all contexts alone but the task's own. -/
theorem schedule_leaves (later : station.policy ≠ .rehearsed .inline) {task : Task}
    (apart : task.context.arena = Machine.ownArena → task.context.id ≠ parent) :
    (station.schedule task).Keeps (Machine.Leaves parent state) fun _ => True := by
  have disposed : (liftM task.dispose : Effect Unit).Keeps (Machine.Leaves parent state)
      fun _ => True :=
    Effect.stays_work (dispose_leaves apart)
  unfold schedule
  split
  · next order isPolicy =>
    refine Effect.Stays.bind (modify_leaves fun _ => rfl) fun _ _ => ?_
    cases order with
    | inline => exact absurd isPolicy later
    | fifo => exact modify_leaves fun _ => rfl
    | lifo => exact modify_leaves fun _ => rfl
    | drop => exact disposed
    | reject => exact Effect.Stays.bind disposed fun _ _ => Effect.stays_fail _
  · split
    · refine Effect.Stays.bind (modify_leaves fun _ => rfl) fun _ _ => ?_
      exact Effect.Stays.bind disposed fun _ _ => Effect.stays_throw _
    · exact Effect.Stays.bind disposed fun _ _ => Effect.stays_fail _
    · exact modify_leaves fun _ => rfl
  · split
    · exact Effect.Stays.bind (modify_leaves fun _ => rfl) fun _ _ => Effect.stays_throw _
    · exact modify_leaves fun _ => rfl

theorem scheduleWorkers_leaves (later : station.policy ≠ .rehearsed .inline) (unit : Callable)
    (caller : Context) (source : RegisterFile) (arguments : List Nat) (response : ResponseId)
    (workers : List Worker) :
    (station.scheduleWorkers unit caller source arguments response workers).Keeps
      (Machine.Leaves parent state) fun _ => True := by
  induction workers with
  | nil => exact Effect.stays_pure trivial
  | cons worker rest inductionHypothesis =>
    unfold scheduleWorkers
    refine Effect.Stays.bind (prepareTask_leaves _ _ _ _ _ _ _) fun task apart => ?_
    refine Effect.Stays.bind (modify_leaves fun _ => rfl) fun _ _ => ?_
    exact Effect.Stays.bind (schedule_leaves later apart) fun _ _ => inductionHypothesis

/-- Make the workers of an invocation and hand all but the first to the scheduler. -/
def beginWorkers (station : Station) (unit : Callable) (caller : Context) (source : RegisterFile)
    (arguments : List Nat) (response : ResponseId) : Effect Invocation := do
  station.scheduleWorkers unit caller source arguments response unit.scheduledWorkers
  let task ← prepareTask unit unit.callerWorker caller source arguments response true
  return ⟨unit, caller.id, response, some task⟩

/-- To begin an invocation without waiting is to make its workers; where that breaks off, the handle
is dropped. -/
theorem dispatch_eq_beginWorkers (unit : Callable) (caller : Context) (source : RegisterFile)
    (arguments : List Nat) :
    station.dispatch unit caller source arguments false = (do
      Effect.ofExcept (unit.checkArity arguments.length)
      let response ← Effect.atomically
        (Machine.openResponse unit.returns false unit.workers.length)
      Effect.orElseRun (station.beginWorkers unit caller source arguments response)
        (WorkerMachine.resumeParent caller.id)) :=
  rfl

/-- Whoever makes the workers of an invocation leaves the states of all contexts as they are that there
have been before, the parent's among them. -/
theorem beginWorkers_leaves (later : station.policy ≠ .rehearsed .inline) (unit : Callable)
    (caller : Context) (source : RegisterFile) (arguments : List Nat) (response : ResponseId) :
    (station.beginWorkers unit caller source arguments response).Keeps
      (Machine.Leaves parent state) fun _ => True := by
  unfold beginWorkers
  refine Effect.Stays.bind (scheduleWorkers_leaves later _ _ _ _ _ _) fun _ _ => ?_
  exact Effect.Stays.bind (prepareTask_leaves _ _ _ _ _ _ _) fun _ _ => Effect.stays_pure trivial

end Station

end Beginning

/-! ## What the mark tells -/

namespace Machine

variable {parent : ContextId} {machine later : Machine} {events : List HandleEvent}

theorem state?_alterArena (machine : Machine) (id : ContextId) (change : Arena → Arena) :
    (machine.alterArena ownArena change).state? id = (change (machine.arena ownArena)).state? id :=
  machine.stateIn?_alterArena_self ownArena

/-- A join may mark a parent that runs, and one that is marked already. -/
theorem state?_suspendParent
    (active : machine.state? parent = some .running ∨ machine.state? parent = some .waiting) :
    (machine.suspendParent parent).1 = .ok () ∧
      (machine.suspendParent parent).2.state? parent = some .waiting := by
  have isLater : (machine.suspendParent parent).2.state? parent =
      ((machine.arena ownArena).suspend parent).2.state? parent :=
    machine.state?_alterArena parent fun records => (records.suspend parent).2
  rw [isLater]
  change ((machine.arena ownArena).suspend parent).1 = .ok () ∧ _
  unfold Arena.suspend
  obtain runs | waits := active
  · rw [show (machine.arena ownArena).state? parent = some .running from runs]
    exact Arena.state?_beginWait runs
  · rw [show (machine.arena ownArena).state? parent = some .waiting from waits]
    exact ⟨rfl, waits⟩

theorem state?_resumeParent
    (active : machine.state? parent = some .running ∨ machine.state? parent = some .waiting) :
    (machine.resumeParent parent).state? parent = some .running := by
  refine (machine.state?_alterArena parent _).trans ?_
  unfold Arena.resume
  obtain runs | waits := active
  · rw [show (machine.arena ownArena).state? parent = some .running from runs]
    exact runs
  · rw [show (machine.arena ownArena).state? parent = some .waiting from waits]
    exact (Arena.state?_transition waits rfl).2

theorem Handling.state?_eq (running : machine.state? parent = some .running)
    (handling : Handling parent machine events later) :
    later.state? parent = some (if HandleEvent.marks events then .waiting else .running) := by
  have active : ∀ {between : Machine} {marked : Bool},
      between.state? parent = some (if marked then .waiting else .running) →
        between.state? parent = some .running ∨ between.state? parent = some .waiting := by
    intro between marked isState
    cases marked
    · exact .inl isState
    · exact .inr isState
  induction handling with
  | start => exact running
  | elsewhere _ same inductionHypothesis => exact same.trans inductionHypothesis
  | begins _ inductionHypothesis => exact inductionHypothesis
  | startsJoin _ _ _ inductionHypothesis =>
    exact (state?_suspendParent (active inductionHypothesis)).2
  | endsJoin _ _ inductionHypothesis => exact state?_resumeParent (active inductionHypothesis)
  | drops _ _ inductionHypothesis => exact state?_resumeParent (active inductionHypothesis)

/-- Only handles that have been begun have come to anything. -/
theorem Handling.begun (handling : Handling parent machine events later) {handle : Nat}
    (known : HandleEvent.phase? events handle ≠ none) : handle < events.count .begins := by
  have goesOn : ∀ {event : HandleEvent} {earlier : List HandleEvent} {turned asked : Nat}
      {phase : HandlePhase}, event ≠ .begins →
      (∀ {handle}, HandleEvent.phase? earlier handle ≠ none → handle < earlier.count .begins) →
      HandleEvent.phase? earlier turned ≠ none →
      (if asked = turned then some phase else HandleEvent.phase? earlier asked) ≠ none →
      asked < (event :: earlier).count .begins := by
    intro event earlier turned asked phase isOther inductionHypothesis turnedBegun known
    rw [List.count_cons_of_ne isOther]
    split at known
    · next same => exact same ▸ inductionHypothesis turnedBegun
    · exact inductionHypothesis known
  induction handling generalizing handle with
  | start => exact absurd rfl known
  | elsewhere _ _ inductionHypothesis => exact inductionHypothesis known
  | begins _ inductionHypothesis =>
    rw [List.count_cons_self]
    unfold HandleEvent.phase? at known
    split at known
    · next isNew => exact isNew ▸ Nat.lt_succ_self _
    · exact Nat.lt_succ_of_lt (inductionHypothesis known)
  | startsJoin _ isBegun _ inductionHypothesis =>
    exact goesOn (by simp) inductionHypothesis (by simp [isBegun]) known
  | endsJoin _ isJoining inductionHypothesis =>
    exact goesOn (by simp) inductionHypothesis (by simp [isJoining]) known
  | drops _ isOver inductionHypothesis =>
    refine goesOn (by simp) inductionHypothesis ?_ known
    obtain isBegun | isJoined := isOver
    · simp [isBegun]
    · simp [isJoined]

theorem Handling.joins_begins (handling : Handling parent machine events later) (handle : Nat) :
    HandleEvent.Joins (.begins :: events) handle ↔ HandleEvent.Joins events handle := by
  unfold HandleEvent.Joins
  rw [HandleEvent.phase?]
  split
  · next isNew =>
    constructor
    · simp
    · intro joins
      have known : HandleEvent.phase? events handle ≠ none := by simp [joins]
      have isOld := handling.begun known
      omega
  · rfl

/-- While the mark stands, somebody joins. -/
theorem Handling.exists_joins (handling : Handling parent machine events later)
    (marks : HandleEvent.marks events = true) : ∃ handle, HandleEvent.Joins events handle := by
  induction handling with
  | start => cases marks
  | elsewhere _ _ inductionHypothesis => exact inductionHypothesis marks
  | begins before inductionHypothesis =>
    obtain ⟨handle, joins⟩ := inductionHypothesis marks
    exact ⟨handle, (before.joins_begins handle).mpr joins⟩
  | @startsJoin _ _ handle _ _ _ _ => exact ⟨handle, if_pos rfl⟩
  | endsJoin => cases marks
  | drops => cases marks

/-- Where no join is disturbed, the mark stands while somebody joins. -/
theorem Handling.marks_of_joins (handling : Handling parent machine events later)
    (oneByOne : HandleEvent.OneByOne events) {handle : Nat}
    (joins : HandleEvent.Joins events handle) : HandleEvent.marks events = true := by
  induction handling generalizing handle with
  | start => cases joins
  | elsewhere _ _ inductionHypothesis => exact inductionHypothesis oneByOne joins
  | begins before inductionHypothesis =>
    exact inductionHypothesis oneByOne ((before.joins_begins handle).mp joins)
  | startsJoin => rfl
  | endsJoin | drops =>
    -- The handle of the event would be the only one that is joined, and it no longer is.
    unfold HandleEvent.Joins HandleEvent.phase? at joins
    split at joins
    · cases joins
    · next different => exact absurd (oneByOne.1 handle joins) different

/-- What the mark of a parent tells after some events. -/
structure Marked (parent : ContextId) (events : List HandleEvent) (later : Machine) : Prop where
  /-- The parent waits if a join has started since the last join ended and the last handle was dropped,
  and else it runs. -/
  state : later.state? parent = some (if HandleEvent.marks events then .waiting else .running)
  /-- Every further join may start. -/
  admits : (later.suspendParent parent).1 = .ok ()
  /-- A parent that waits is being joined. -/
  joined : later.state? parent = some .waiting → ∃ handle, HandleEvent.Joins events handle
  /-- Where no join ends and no handle is dropped while another handle is joined, the parent waits
  exactly while it is being joined. -/
  undisturbed : HandleEvent.OneByOne events →
    (later.state? parent = some .waiting ↔ ∃ handle, HandleEvent.Joins events handle)

theorem parent_marked (running : machine.state? parent = some .running)
    (handling : Handling parent machine events later) : Marked parent events later := by
  have isState := handling.state?_eq running
  have marks_iff : later.state? parent = some .waiting ↔ HandleEvent.marks events = true := by
    rw [isState]
    cases HandleEvent.marks events <;> simp
  refine ⟨isState, ?_, fun waits => handling.exists_joins (marks_iff.mp waits), fun oneByOne => ?_⟩
  · refine (state?_suspendParent ?_).1
    rw [isState]
    cases HandleEvent.marks events <;> simp
  · constructor
    · exact fun waits => handling.exists_joins (marks_iff.mp waits)
    · rintro ⟨handle, joins⟩
      exact marks_iff.mpr (handling.marks_of_joins oneByOne joins)

def withRoot : Machine :=
  (Machine.start default .empty).alterArena ownArena fun records =>
    (records.register ⟨none, .running, Arena.rootLabel⟩).2

/-- Two invocations of a root are joined at the same time.  When the second join ends, the root runs,
though the first one is still under way. -/
theorem parent_marked_of_overlap :
    withRoot.state? 1 = some .running ∧
      ∃ later, Handling 1 withRoot [.endsJoin 1, .startsJoin 1, .startsJoin 0, .begins, .begins]
          later ∧
        Marked 1 [.endsJoin 1, .startsJoin 1, .startsJoin 0, .begins, .begins] later ∧
        HandleEvent.Joins [.endsJoin 1, .startsJoin 1, .startsJoin 0, .begins, .begins] 0 ∧
        later.state? 1 = some .running := by
  have running : withRoot.state? 1 = some .running := rfl
  have handling : Handling 1 withRoot [.endsJoin 1, .startsJoin 1, .startsJoin 0, .begins, .begins]
      _ :=
    .endsJoin (.startsJoin (.startsJoin (.begins (.begins .start)) rfl rfl) rfl rfl) rfl
  exact ⟨running, _, handling, parent_marked running handling, rfl, handling.state?_eq running⟩

/-- A parent does not wait all the time that it is being joined: here a second handle is dropped
during the join of the first one. -/
theorem joined_parent_may_run :
    ¬∀ (parent : ContextId) (machine later : Machine) (events : List HandleEvent),
      machine.state? parent = some .running → Handling parent machine events later →
        (later.state? parent = some .waiting ↔ ∃ handle, HandleEvent.Joins events handle) := by
  intro waitsWhileJoined
  have handling : Handling 1 withRoot [.drops 1, .startsJoin 0, .begins, .begins] _ :=
    .drops (.startsJoin (.begins (.begins .start)) rfl rfl) (.inl rfl)
  have waits := (waitsWhileJoined 1 withRoot _ _ rfl handling).mpr ⟨0, rfl⟩
  rw [handling.state?_eq rfl] at waits
  cases waits

end Machine

end WorkerMachine
