import WorkerMachine.Proofs.Invocation.Waiting
/-!
# The meaning of a waiting invocation

Whatever the threads of a crowd do, as long as they mind their own business: a thread that calls a
unit below a running context is told the verdict on the endings of all its workers, each of which
has run once, on registers that hold the arguments.  It waits only for workers that have not ended.
-/

namespace WorkerMachine

/-! ## Threads that come for tasks -/

/-- At its end no thread is in charge of a worker of the call, and the caller has been told. -/
def Call.Ends (call : Call) (thread : ThreadId)
    (answer : Option (Except Interruption (List Value))) (last : Part) : Prop :=
  last.duty = .none ∧
    (thread = call.thread → ∃ told, answer = some told ∧ Station.Told call told last)

section Threads

variable {arenas : Set ArenaKey} {call : Call} {setup : Setup} {interpreter : Interpreter}
  {depth : Nat} {thread : ThreadId} {token : Part}

/-- A thread at whose depth no task is ever begun stays where it is. -/
theorem Effect.stall_follows {Answer : Type} (notCaller : thread ≠ call.thread) :
    (stall : Effect Answer).Follows (call.discipline arenas) thread token (fun _ _ => False)
      fun _ _ => False := by
  have stuck : (waitUntil fun _ => false).Follows (call.discipline arenas) thread token
      (fun _ _ => False) fun _ _ => False :=
    Effect.follows_waitUntil (fun _ _ _ _ _ isCaller => absurd isCaller notCaller)
      fun _ _ _ _ never => by cases never
  exact stuck.bind fun _ _ never => never.elim

/-- A thread that was started for a task carries it out, whether it is one of the call or not. -/
theorem Setup.threadOf_follows (discreet : interpreter.Discreet arenas)
    (unitSound : call.unit.Sound) (notCaller : thread ≠ call.thread) {task : Task}
    (inHand : token.duty = .holding task ∨
      task.context.arena ∈ arenas ∧ Station.Aside task token) :
    ((setup.threadOf interpreter depth thread task).bind fun _ => .done none).Follows
      (call.discipline arenas) thread token (call.Ends thread) := by
  have carried : (((setup.station interpreter thread depth).runTask task).run).Follows
      (call.discipline arenas) thread token fun _ last => last.duty = .none := by
    cases depth with
    | zero =>
        refine Process.Follows.weaken (Effect.stall_follows notCaller) ?_
        intro outcome last never
        cases outcome with
        | ok _ =>
            exact never.elim
        | error _ =>
            exact never.elim
    | succ depth =>
        rcases inHand with holds | ⟨inArenas, aside⟩
        · refine Process.Follows.weaken (Station.carryOut_own discreet unitSound holds) ?_
          intro outcome last reached
          cases outcome with
          | ok _ =>
              exact reached.1
          | error _ =>
              exact reached.1
        · refine Process.Follows.weaken
            (Station.carryOut_stranger discreet inArenas notCaller aside) ?_
          intro outcome last reached
          cases outcome with
          | ok _ =>
              exact reached.2.2.1
          | error _ =>
              exact reached.2.2.1
  have ran : (setup.threadOf interpreter depth thread task).Follows (call.discipline arenas) thread
      token fun _ last => last.duty = .none := by
    refine carried.bind fun _ last free => ?_
    refine Process.Follows.weaken (Process.spared_modify fun _ within =>
      Spares.of_same within rfl rfl rfl rfl) ?_
    rintro _ _ ⟨rfl, _⟩
    exact free
  exact ran.bind fun _ _ free => ⟨free, fun isCaller => absurd isCaller notCaller⟩

/-- Threads that come for tasks keep to the discipline of a call. -/
theorem Call.welcoming (call : Call) (discreet : interpreter.Discreet arenas)
    (unitSound : call.unit.Sound) :
    Crowd.Welcoming (call.discipline arenas) Part.idle call.Ends
      (setup.Starts interpreter depth) := by
  rintro machine hands thread process later ⟨notes, noted, sound⟩ isIdle arrives
  have notCaller : thread ≠ call.thread := by
    rintro rfl
    rw [isIdle] at noted
    cases noted
  have sameNotes : ∀ own duty, (⟨own, duty, none⟩ : Part).notes = (hands thread).notes := by
    rw [isIdle]
    exact fun _ _ => rfl
  cases arrives with
  | @start _ _ front rest task nextThread isSpawned =>
      refine ⟨permits_of_same rfl, ?_⟩
      by_cases ofCall : task.response = call.response
      · have isFree : (hands thread).duty = .none := by
          rw [isIdle]
          rfl
        have sameOwns : Function.update (fun thread => (hands thread).own) thread .none =
            fun thread => (hands thread).own := by
          rw [show Belongings.none = (hands thread).own by rw [isIdle]; rfl]
          exact Function.update_eq_self thread _
        refine ⟨⟨.none, .holding task, none⟩, fits_update noted (sameNotes _ _) ?_,
          Setup.threadOf_follows discreet unitSound notCaller (.inl rfl)⟩
        rw [sameOwns]
        exact sound.arrive nextThread isFree isSpawned ofCall
      · have isThere : task ∈ machine.spawned := by
          rw [isSpawned]
          exact List.mem_append_right _ List.mem_cons_self
        have inArenas := ((sound.strangers task isThere ofCall).1.contexts _ _ rfl).1
        have sameDuties : Function.update (fun thread => (hands thread).duty) thread .none =
            fun thread => (hands thread).duty := by
          rw [show Duty.none = (hands thread).duty by rw [isIdle]; rfl]
          exact Function.update_eq_self thread _
        refine ⟨.bystander (.ofTask task), fits_update noted (sameNotes _ _) ?_,
          Setup.threadOf_follows discreet unitSound notCaller
            (.inr ⟨inArenas, subset_rfl, subset_rfl, rfl, rfl⟩)⟩
        change Call.Sound arenas call _ (Function.update _ thread .none) _ notes
        rw [sameDuties]
        exact sound.arriveStranger nextThread isSpawned ofCall

end Threads

/-! ## The beginning of a call -/

/-- A call whose arguments match the parameters opens its response in its first step. -/
theorem Station.callValues_run_bind {Answer : Type} {station : Station} {unit : Callable}
    {parent : Context} {arguments : List Value} {source : RegisterFile}
    (arity : unit.params.length = arguments.length)
    (lowered : Marshalling.lower unit.params arguments = .ok source) (thread : ThreadId)
    (follow : Except Interruption (List Value) → Work Answer) :
    (station.callValues unit parent arguments).run.bind follow =
      .step (fun _ => true)
        (fun machine => (Machine.openResponse unit.returns true unit.workers.length machine).2)
        fun machine =>
          (station.afterOpening ⟨unit, parent, source, thread, machine.responses.size⟩).run.bind
            follow := by
  rw [callValues_eq arity lowered thread]
  rfl

/-- Nothing in a crowd is in the way of a thread that calls a unit below a context: the context runs,
nothing has happened yet for the next response, and the other threads and the tasks that wait for
threads mind their own business, to which the context does not belong. -/
structure Crowd.ReadyFor {Answer : Type} (arenas : Set ArenaKey) (thread : ThreadId)
    (parent : Context) (crowd : Crowd ThreadId Machine Answer) : Prop where
  inArenas : parent.arena ∈ arenas
  running : crowd.state.stateIn? parent.arena parent.id = some .running
  older : parent.id < (crowd.state.arena parent.arena).nextId
  noStarts : crowd.state.starts crowd.state.responses.size = []
  noEndings : crowd.state.endings crowd.state.responses.size = []
  spawned : ∀ task ∈ crowd.state.spawned,
    (Belongings.ofTask task).Within arenas crowd.state ∧ task.context.place ≠ parent.place
  others : ∀ other process, other ≠ thread → crowd.process other = some process →
    ∃ own : Belongings, own.Within arenas crowd.state ∧ parent.place ∉ own.contexts ∧
      process.Minds arenas own fun _ _ => True

namespace Crowd

variable {Answer : Type} {arenas : Set ArenaKey} {thread : ThreadId} {parent : Context}

/-- What belongs to the threads of a crowd in which nothing is in the way of a call. -/
theorem ReadyFor.exists_owns {crowd : Crowd ThreadId Machine Answer}
    (isReady : crowd.ReadyFor arenas thread parent) :
    ∃ owns : ThreadId → Belongings,
      (∀ other, (owns other).Within arenas crowd.state ∧ parent.place ∉ (owns other).contexts) ∧
      (∀ other, crowd.process other = none → owns other = .none) ∧
      ∀ other process, other ≠ thread → crowd.process other = some process →
        process.Minds arenas (owns other) fun _ _ => True := by
  have eachOwns : ∀ other, ∃ own : Belongings,
      (own.Within arenas crowd.state ∧ parent.place ∉ own.contexts) ∧
      (crowd.process other = none → own = .none) ∧
      ∀ process, other ≠ thread → crowd.process other = some process →
        process.Minds arenas own fun _ _ => True := by
    intro other
    have nothing : Belongings.none.Within arenas crowd.state ∧
        parent.place ∉ Belongings.none.contexts :=
      ⟨Belongings.none_within arenas crowd.state, fun never => never.elim⟩
    by_cases isCaller : other = thread
    · exact ⟨.none, nothing, fun _ => rfl, fun _ notCaller => absurd isCaller notCaller⟩
    · cases holds : crowd.process other with
      | none =>
          exact ⟨.none, nothing, fun _ => rfl, fun _ _ never => by cases never⟩
      | some process =>
          obtain ⟨own, within, apart, minds⟩ := isReady.others other process isCaller holds
          refine ⟨own, ⟨within, apart⟩, ?_, ?_⟩
          · intro never
            cases never
          · intro _ _ same
            cases same
            exact minds
  choose owns owned absent minds using eachOwns
  exact ⟨owns, owned, absent, minds⟩

end Crowd

section Opening

variable {arenas : Set ArenaKey} {thread : ThreadId} {parent : Context} {setup : Setup}
  {interpreter : Interpreter} {depth limit : Nat} {unit : Callable} {arguments : List Value}
  {crowd opened : Crowd ThreadId Machine (Option (Except Interruption (List Value)))}

/-- The process of a thread that calls a unit with values below a context. -/
def Setup.callerOf (setup : Setup) (interpreter : Interpreter) (depth : Nat) (thread : ThreadId)
    (unit : Callable) (parent : Context) (arguments : List Value) :
    Work (Option (Except Interruption (List Value))) :=
  ((setup.station interpreter thread (depth + 1)).callValues unit parent arguments).run.bind
    fun answer => .done (some answer)

/-- Once a thread has begun with its call, all threads follow the discipline of the call. -/
theorem Crowd.ReadyFor.orderly (isReady : crowd.ReadyFor arenas thread parent)
    (discreet : interpreter.Discreet arenas) (reliable : setup.policy.Reliable)
    (unitSound : unit.Sound) {source : RegisterFile}
    (arity : unit.params.length = arguments.length)
    (lowered : Marshalling.lower unit.params arguments = .ok source)
    (sized : source.sizes = unit.params.sizes)
    (calls : crowd.process thread =
      some (setup.callerOf interpreter depth thread unit parent arguments))
    (opens : crowd.Move (setup.Starts interpreter limit) thread opened) :
    let call : Call := ⟨unit, parent, source, thread, crowd.state.responses.size⟩
    opened.Orderly (call.discipline arenas) Part.idle call.Ends := by
  intro call
  obtain ⟨owns, owned, absent, minds⟩ := isReady.exists_owns
  have isFirst : ∃ update next,
      setup.callerOf interpreter depth thread unit parent arguments =
          .step (fun _ => true) update next ∧
        update crowd.state =
          (Machine.openResponse unit.returns true unit.workers.length crowd.state).2 ∧
        next crowd.state = ((setup.station interpreter thread (depth + 1)).afterOpening call).run.bind
          fun answer => .done (some answer) :=
    ⟨_, _, Station.callValues_run_bind arity lowered thread _, rfl, rfl⟩
  obtain ⟨update, next, isStep, updates, goesOn⟩ := isFirst
  rw [isStep] at calls
  have isOpened : opened = crowd.after thread (update crowd.state) (next crowd.state) := by
    cases opens with
    | step holds _ =>
        rw [calls] at holds
        cases holds
        rfl
    | wake holds =>
        rw [calls] at holds
        cases holds
    | arrive holds _ =>
        rw [calls] at holds
        cases holds
  have clear : call.Clear arenas crowd.state owns :=
    { inArenas := isReady.inArenas
      running := isReady.running
      parentOlder := isReady.older
      next := rfl
      noStarts := isReady.noStarts
      noEndings := isReady.noEndings
      strangers := isReady.spawned
      owns := owned }
  have ofCaller : (next crowd.state).Follows (call.discipline arenas) thread
      ⟨owns thread, .none, some Call.firstNotes⟩ (call.Ends thread) := by
    rw [goesOn]
    have told : ((setup.station interpreter thread (depth + 1)).afterOpening call).run.Follows
        (call.discipline arenas) thread ⟨owns thread, .none, some Call.firstNotes⟩
        (Station.Told call) :=
      Station.afterOpening_follows discreet reliable unitSound sized depth rfl rfl
    exact Process.Follows.bind told fun answer last isTold =>
      ⟨isTold.1, fun _ => ⟨answer, rfl, isTold⟩⟩
  let hands : ThreadId → Part := fun other =>
    ⟨owns other, .none, if other = thread then some Call.firstNotes else none⟩
  have handsOfCaller : hands thread = ⟨owns thread, .none, some Call.firstNotes⟩ := by
    simp only [hands, if_true]
  rw [isOpened]
  refine ⟨hands, ?_, ?_, ?_⟩
  · refine ⟨Call.firstNotes, congrArg Part.notes handsOfCaller, ?_⟩
    change call.Sound arenas (update crowd.state) _ _ _
    rw [updates]
    exact clear.sound
  · intro other process holds
    by_cases isCaller : other = thread
    · subst isCaller
      have isNext : next crowd.state = process := by
        simpa [Crowd.after] using holds
      rw [← isNext, handsOfCaller]
      exact ofCaller
    · have held : crowd.process other = some process := by
        simpa [Crowd.after, isCaller] using holds
      refine Process.Follows.weaken
        ((minds other process isCaller held).follows fun same => absurd same isCaller) ?_
      rintro _ last ⟨_, _, _, sameDuty, _⟩
      exact ⟨sameDuty, fun same => absurd same isCaller⟩
  · intro other missing
    by_cases isCaller : other = thread
    · subst isCaller
      simp [Crowd.after] at missing
    · have notThere : crowd.process other = none := by
        simpa [Crowd.after, isCaller] using missing
      simp only [hands, isCaller, if_false, absent other notThere]
      rfl

end Opening

/-! ## How a call fares -/

namespace Call

variable {arenas : Set ArenaKey} {call : Call} {machine : Machine} {duties : ThreadId → Duty}
  {owns : ThreadId → Belongings} {notes : Notes}

/-- As soon as all workers have ended, nothing keeps the caller from its end. -/
theorem exists_ended {arrivals : Arrivals ThreadId Machine (Option (Except Interruption (List Value)))}
    (welcoming : Crowd.Welcoming (call.discipline arenas) Part.idle call.Ends arrivals)
    {process : Work (Option (Except Interruption (List Value)))}
    {crowd : Crowd ThreadId Machine (Option (Except Interruption (List Value)))}
    (orderly : crowd.Orderly (call.discipline arenas) Part.idle call.Ends)
    (holds : crowd.process call.thread = some process)
    (complete : call.unit.workers.length ≤ (crowd.state.endings call.response).length) :
    ∃ last answer, crowd.Leads arrivals last ∧ last.Ended call.thread answer := by
  induction process generalizing crowd with
  | done answer =>
      exact ⟨crowd, answer, .refl, holds⟩
  | step ready update next inductionHypothesis =>
      have isReady : ready crowd.state = true := by
        by_contra notReady
        obtain ⟨hands, orderlyWith⟩ := orderly
        have waits : crowd.Waits call.thread :=
          ⟨ready, update, next, holds, Bool.not_eq_true _ ▸ notReady⟩
        obtain ⟨fewer, _⟩ := orderlyWith.waits waits rfl
        exact Nat.not_lt.mpr complete fewer
      have moved : crowd.Move arrivals call.thread _ := .step holds isReady
      obtain ⟨extended, orderlyAfter⟩ := orderly.move welcoming moved
      have stillComplete := Nat.le_trans complete (List.IsPrefix.length_le extended)
      obtain ⟨last, answer, leads, ended⟩ :=
        inductionHypothesis crowd.state orderlyAfter (by simp [Crowd.after]) stillComplete
      exact ⟨last, answer, .head ⟨_, moved⟩ leads, ended⟩
  | sleep milliseconds next inductionHypothesis =>
      have moved : crowd.Move arrivals call.thread _ := .wake holds
      obtain ⟨_, orderlyAfter⟩ := orderly.move welcoming moved
      obtain ⟨last, answer, leads, ended⟩ :=
        inductionHypothesis orderlyAfter (by simp [Crowd.after]) complete
      exact ⟨last, answer, .head ⟨_, moved⟩ leads, ended⟩

end Call

def poolSetup : Setup := ⟨default, .threadPool true Policy.usualThreadName 2, .full⟩

/-- A machine with arenas that hold a root each, in some state. -/
def Machine.withRoots (roots : List (ArenaKey × ContextState)) : Machine :=
  { Machine.start default .empty with
    arenas := .ofList (roots.map fun root =>
      (root.1, ⟨.ofList [(1, ⟨none, root.2, Arena.rootLabel⟩)], 2⟩)) }

end WorkerMachine
