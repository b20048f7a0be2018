import WorkerMachine.Proofs.Machine.Effects
/-!
# Staying with a token

Much of what a thread does is of no concern to a discipline: it is done with one and the same token
in hand.  Of such work there is only to say what its answer is like.  A discipline that asks nothing
but to keep a property of the state knows a single token, and all work is of this kind.
-/

namespace WorkerMachine

variable {Thread Token Answer First Second : Type} [DecidableEq Thread]

/-- A process follows a discipline with one token in hand, and its answer reaches a goal. -/
def Process.Stays {State : Type} (discipline : Discipline Thread State Token) (thread : Thread)
    (token : Token) (process : Process State Answer) (goal : Answer → Prop) : Prop :=
  process.Follows discipline thread token fun answer last => last = token ∧ goal answer

/-- An effect follows a discipline with one token in hand, also when it is interrupted. -/
def Effect.Stays (discipline : Discipline Thread Machine Token) (thread : Thread) (token : Token)
    (effect : Effect Answer) (goal : Answer → Prop) : Prop :=
  effect.Follows discipline thread token (fun answer last => last = token ∧ goal answer)
    fun _ last => last = token

/-- A routine follows a discipline with one token in hand.  An interruption leaves a context as
described by `upset`. -/
def Routine.Stays (discipline : Discipline Thread Machine Token) (thread : Thread) (token : Token)
    (routine : Routine Answer) (context : Context) (goal : Answer → Context → Prop)
    (upset : Context → Prop) : Prop :=
  routine.Follows discipline thread context token
    (fun answer after last => last = token ∧ goal answer after)
    fun _ after last => last = token ∧ upset after

namespace Process

variable {State : Type} {discipline : Discipline Thread State Token} {thread : Thread}
  {token : Token} {goal : Answer → Prop}

theorem stays_done {answer : Answer} (reached : goal answer) :
    (done answer : Process State Answer).Stays discipline thread token goal :=
  ⟨rfl, reached⟩

theorem Stays.weaken {process : Process State Answer} {weaker : Answer → Prop}
    (stays : process.Stays discipline thread token goal)
    (implied : ∀ answer, goal answer → weaker answer) :
    process.Stays discipline thread token weaker :=
  Follows.weaken stays fun answer _ reached => ⟨reached.1, implied answer reached.2⟩

theorem Stays.bind {process : Process State First} {follow : First → Process State Second}
    {between : First → Prop} {goal : Second → Prop}
    (first : process.Stays discipline thread token between)
    (second : ∀ answer, between answer → (follow answer).Stays discipline thread token goal) :
    (process.bind follow).Stays discipline thread token goal := by
  refine Follows.bind first ?_
  rintro answer middle ⟨rfl, reached⟩
  exact second answer reached

theorem stays_read {view : State → Answer}
    (reached : ∀ state hands, discipline.fits state hands → hands thread = token →
      goal (view state)) :
    (read view).Stays discipline thread token goal :=
  follows_read fun state hands fits holding => ⟨rfl, reached state hands fits holding⟩

theorem stays_atomically {operation : State → Answer × State}
    (reached : ∀ state hands, discipline.fits state hands → hands thread = token →
      discipline.permits state (operation state).2 ∧ discipline.fits (operation state).2 hands ∧
        goal (operation state).1) :
    (atomically operation).Stays discipline thread token goal := by
  refine follows_atomically fun state hands fits holding => ?_
  obtain ⟨permitted, fitsAfter, reachedGoal⟩ := reached state hands fits holding
  refine ⟨permitted, token, ?_, rfl, reachedGoal⟩
  rw [← holding, Function.update_eq_self]
  exact fitsAfter

theorem stays_modify {update : State → State} {goal : Unit → Prop}
    (preserved : ∀ state hands, discipline.fits state hands → hands thread = token →
      discipline.permits state (update state) ∧ discipline.fits (update state) hands)
    (reached : goal ()) : (modify update).Stays discipline thread token goal := by
  refine follows_modify fun state hands fits holding => ?_
  obtain ⟨permitted, fitsAfter⟩ := preserved state hands fits holding
  refine ⟨permitted, token, ?_, rfl, reached⟩
  rw [← holding, Function.update_eq_self]
  exact fitsAfter

end Process

namespace Effect

variable {discipline : Discipline Thread Machine Token} {thread : Thread} {token : Token}
  {goal : Answer → Prop}

theorem stays_pure {answer : Answer} (reached : goal answer) :
    (pure answer : Effect Answer).Stays discipline thread token goal :=
  ⟨rfl, reached⟩

theorem stays_throw (interruption : Interruption) :
    (throw interruption : Effect Answer).Stays discipline thread token goal :=
  rfl

theorem stays_fail (fault : Fault) :
    (fail fault : Effect Answer).Stays discipline thread token goal :=
  rfl

theorem stays_ofExcept {outcome : Except Fault Answer}
    (reached : ∀ answer, outcome = .ok answer → goal answer) :
    (ofExcept outcome).Stays discipline thread token goal :=
  follows_ofExcept (fun answer isOk => ⟨rfl, reached answer isOk⟩) fun _ _ => rfl

theorem stays_ofAccess {outcome : Except Overrun Answer}
    (reached : ∀ answer, outcome = .ok answer → goal answer) :
    (ofAccess outcome).Stays discipline thread token goal :=
  follows_ofAccess (fun answer isOk => ⟨rfl, reached answer isOk⟩) fun _ _ => rfl

theorem stays_mk {outcome : Except Interruption Answer}
    (reached : ∀ answer, outcome = .ok answer → goal answer) :
    Stays discipline thread token (ExceptT.mk (pure outcome) : Effect Answer) goal := by
  cases outcome with
  | ok answer =>
      exact stays_pure (reached answer rfl)
  | error interruption =>
      exact stays_throw interruption

theorem Stays.weaken {effect : Effect Answer} {weaker : Answer → Prop}
    (stays : effect.Stays discipline thread token goal)
    (implied : ∀ answer, goal answer → weaker answer) :
    effect.Stays discipline thread token weaker :=
  Follows.weaken stays (fun answer _ reached => ⟨reached.1, implied answer reached.2⟩)
    fun _ _ reached => reached

theorem Stays.holding {effect : Effect Answer} {property : Token → Prop}
    (stays : effect.Stays discipline thread token goal) (holds : property token) :
    effect.Follows discipline thread token (fun _ => property) fun _ => property := by
  refine Follows.weaken stays ?_ ?_
  · rintro _ _ ⟨rfl, _⟩
    exact holds
  · rintro _ _ rfl
    exact holds

theorem Stays.bind {effect : Effect First} {follow : First → Effect Second}
    {between : First → Prop} {goal : Second → Prop}
    (first : effect.Stays discipline thread token between)
    (second : ∀ answer, between answer → (follow answer).Stays discipline thread token goal) :
    (effect >>= follow).Stays discipline thread token goal := by
  refine Follows.bind first ?_
  rintro answer middle ⟨rfl, reached⟩
  exact second answer reached

theorem stays_work {work : Work Answer} (stays : work.Stays discipline thread token goal) :
    (liftM work : Effect Answer).Stays discipline thread token goal :=
  follows_work stays

/-- The work of an effect, of which only the answers reach anything. -/
theorem Stays.run {effect : Effect Answer} (stays : effect.Stays discipline thread token goal) :
    effect.run.Stays discipline thread token
      fun outcome => ∀ answer, outcome = .ok answer → goal answer := by
  refine Process.Follows.weaken stays ?_
  intro outcome last reached
  cases outcome with
  | ok answer =>
      refine ⟨reached.1, fun other same => ?_⟩
      cases same
      exact reached.2
  | error interruption =>
      refine ⟨reached, ?_⟩
      intro _ never
      cases never

theorem stays_read {view : Machine → Answer}
    (reached : ∀ machine hands, discipline.fits machine hands → hands thread = token →
      goal (view machine)) :
    (read view).Stays discipline thread token goal :=
  stays_work (Process.stays_read reached)

theorem stays_pause (milliseconds : Nat) {goal : Unit → Prop} (reached : goal ()) :
    (pause milliseconds).Stays discipline thread token goal :=
  follows_pause ⟨rfl, reached⟩

theorem Stays.followedBy {effect : Effect Answer} {cleanup : Work Unit}
    (first : effect.Stays discipline thread token goal)
    (second : cleanup.Stays discipline thread token fun _ => True) :
    (effect.followedBy cleanup).Stays discipline thread token goal := by
  refine Follows.followedBy first ?_
  intro outcome middle reached
  have same : middle = token := by
    cases outcome with
    | ok answer =>
        exact reached.1
    | error interruption =>
        exact reached
  subst same
  refine Process.Follows.weaken second ?_
  rintro _ last ⟨rfl, _⟩
  exact reached

theorem Stays.orElseRun {effect : Effect Answer} {cleanup : Work Unit}
    (first : effect.Stays discipline thread token goal)
    (second : cleanup.Stays discipline thread token fun _ => True) :
    (effect.orElseRun cleanup).Stays discipline thread token goal := by
  refine Follows.orElseRun first ?_
  rintro _ middle rfl
  exact Process.Follows.weaken second fun _ _ reached => reached.1

theorem Stays.attempt {effect : Effect Answer}
    (stays : effect.Stays discipline thread token fun _ => True) :
    effect.attempt.Stays discipline thread token fun _ => True := by
  refine Follows.attempt (Follows.weaken stays (fun _ _ reached => reached) ?_)
  intro interruption last reached
  cases interruption with
  | fault fault =>
      exact ⟨reached, trivial⟩
  | panic payload =>
      exact reached
  | exhausted =>
      exact reached

end Effect

namespace Routine

variable {discipline : Discipline Thread Machine Token} {thread : Thread} {token : Token}
  {goal : Answer → Context → Prop} {upset : Context → Prop} {context : Context}

theorem stays_pure {answer : Answer} (reached : goal answer context) :
    (pure answer : Routine Answer).Stays discipline thread token context goal upset :=
  ⟨rfl, reached⟩

theorem stays_throw {interruption : Interruption} (reached : upset context) :
    (throw interruption : Routine Answer).Stays discipline thread token context goal upset :=
  ⟨rfl, reached⟩

theorem stays_get {goal : Context → Context → Prop} (reached : goal context context) :
    (get : Routine Context).Stays discipline thread token context goal upset :=
  ⟨rfl, reached⟩

theorem stays_set {after : Context} {goal : PUnit → Context → Prop} (reached : goal .unit after) :
    (set after : Routine PUnit).Stays discipline thread token context goal upset :=
  ⟨rfl, reached⟩

theorem Stays.weaken {routine : Routine Answer} {weaker : Answer → Context → Prop}
    {weakerUpset : Context → Prop}
    (stays : routine.Stays discipline thread token context goal upset)
    (implied : ∀ answer after, goal answer after → weaker answer after)
    (impliedUpset : ∀ after, upset after → weakerUpset after) :
    routine.Stays discipline thread token context weaker weakerUpset :=
  Follows.weaken stays
    (fun answer after _ reached => ⟨reached.1, implied answer after reached.2⟩)
    fun _ after _ reached => ⟨reached.1, impliedUpset after reached.2⟩

/-- Nothing need be reached. -/
theorem Stays.forget {routine : Routine Answer}
    (stays : routine.Stays discipline thread token context goal upset) :
    routine.Stays discipline thread token context (fun _ _ => True) fun _ => True :=
  stays.weaken (fun _ _ _ => trivial) fun _ _ => trivial

theorem Stays.bind {routine : Routine First} {follow : First → Routine Second}
    {between : First → Context → Prop} {goal : Second → Context → Prop}
    (first : routine.Stays discipline thread token context between upset)
    (second : ∀ answer after, between answer after →
      (follow answer).Stays discipline thread token after goal upset) :
    (routine >>= follow).Stays discipline thread token context goal upset := by
  refine Follows.bind first ?_
  rintro answer after middle ⟨rfl, reached⟩
  exact second answer after reached

theorem stays_effect {effect : Effect Answer}
    (stays : effect.Stays discipline thread token fun answer => goal answer context)
    (reached : upset context) :
    (liftM effect : Routine Answer).Stays discipline thread token context goal upset :=
  follows_effect (Effect.Follows.weaken stays (fun _ _ => id) fun _ _ same => ⟨same, reached⟩)

theorem stays_work {work : Work Answer}
    (stays : work.Stays discipline thread token fun answer => goal answer context) :
    (liftM work : Routine Answer).Stays discipline thread token context goal upset :=
  follows_work stays

theorem Stays.attempt {routine : Routine Answer}
    (stays : routine.Stays discipline thread token context (fun _ => upset) upset) :
    routine.attempt.Stays discipline thread token context (fun _ => upset) upset := by
  refine Follows.attempt (Follows.weaken stays (fun _ _ _ => id) ?_)
  intro interruption after _ reached
  cases interruption with
  | fault fault =>
      exact reached
  | panic payload =>
      exact reached
  | exhausted =>
      exact reached

/-- The work of a routine, of which only what is left of the context is told. -/
theorem Stays.run {routine : Routine Answer}
    (stays : routine.Stays discipline thread token context (fun _ => upset) upset) :
    (routine.runOn context).Stays discipline thread token fun answer => upset answer.2 := by
  refine Process.Follows.weaken stays ?_
  rintro ⟨outcome, after⟩ last reached
  cases outcome with
  | ok answer =>
      exact reached
  | error interruption =>
      exact reached

end Routine

/-! ## Keeping a property -/

/-- The discipline that asks nothing but to keep a property. -/
def Discipline.keeping (Thread : Type) {State : Type} (kept : State → Prop) :
    Discipline Thread State Unit where
  fits := fun state _ => kept state
  permits := fun _ _ => True
  excuses := fun _ _ _ => True
  permits_refl := fun _ => trivial

/-- Every step of a process keeps a property of the state, whatever others do in between as long as
they keep it too, and the answer reaches a goal. -/
def Process.Keeps {State : Type} (kept : State → Prop) (process : Process State Answer)
    (goal : Answer → Prop) : Prop :=
  process.Stays (.keeping Unit kept) () () goal

/-- What keeps a property whatever a single other thread does keeps it in any crowd. -/
theorem Process.Keeps.stays {State : Type} {kept : State → Prop} {process : Process State Answer}
    {goal : Answer → Prop} (keeps : process.Keeps kept goal) (thread : Thread) :
    process.Stays (.keeping Thread kept) thread () goal := by
  induction process with
  | done answer => exact keeps
  | step ready update next inductionHypothesis =>
      intro state hands holds _
      obtain ⟨taken, _⟩ := keeps state (fun _ => ()) holds rfl
      refine ⟨fun isReady => ?_, fun _ => trivial⟩
      obtain ⟨_, _, holdsAfter, rest⟩ := taken isReady
      exact ⟨trivial, (), holdsAfter, inductionHypothesis state rest⟩
  | sleep milliseconds next inductionHypothesis => exact inductionHypothesis keeps

/-- Every step of an effect keeps a property of the machine. -/
def Effect.Keeps (kept : Machine → Prop) (effect : Effect Answer) (goal : Answer → Prop) : Prop :=
  effect.Stays (.keeping Unit kept) () () goal

/-- Every step of a routine keeps a property of the machine.  An interruption leaves a context as
described by `upset`. -/
def Routine.Keeps (kept : Machine → Prop) (routine : Routine Answer) (context : Context)
    (goal : Answer → Context → Prop) (upset : Context → Prop) : Prop :=
  routine.Stays (.keeping Unit kept) () () context goal upset

end WorkerMachine
