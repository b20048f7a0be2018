import WorkerMachine.Machine.Effect
import WorkerMachine.Proofs.Process.Discipline
/-!
# Effects and routines that follow a discipline

An effect ends with an answer or with an interruption, and a routine also leaves a context behind.
What is reached in either case is stated apart, so that the rules for effects and routines look like
those for processes: an interruption passes by everything that would have come next.
-/

namespace WorkerMachine

variable {Thread Token Answer First Second : Type} [DecidableEq Thread]
  {discipline : Discipline Thread Machine Token} {thread : Thread} {token : Token}

/-! ## Effects -/

namespace Effect

variable {goal : Answer → Token → Prop} {upset : Interruption → Token → Prop}

/-- What is reached by an outcome: the goal by an answer, and `upset` by an interruption. -/
def Reaches (goal : Answer → Token → Prop) (upset : Interruption → Token → Prop) :
    Except Interruption Answer → Token → Prop
  | .ok answer, token => goal answer token
  | .error interruption, token => upset interruption token

/-- An effect that is run by a thread with a token in hand follows a discipline. -/
def Follows (discipline : Discipline Thread Machine Token) (thread : Thread)
    (effect : Effect Answer) (token : Token) (goal : Answer → Token → Prop)
    (upset : Interruption → Token → Prop) : Prop :=
  effect.run.Follows discipline thread token (Reaches goal upset)

theorem run_bind (effect : Effect First) (follow : First → Effect Second) :
    (effect >>= follow).run = effect.run.bind fun
      | .ok answer => (follow answer).run
      | .error interruption => .done (.error interruption) := by
  rw [ExceptT.run_bind, Process.bind_eq]
  congr 1
  funext outcome
  cases outcome <;> rfl

theorem follows_pure {answer : Answer} (reached : goal answer token) :
    (pure answer : Effect Answer).Follows discipline thread token goal upset :=
  reached

theorem follows_throw {interruption : Interruption} (reached : upset interruption token) :
    (throw interruption : Effect Answer).Follows discipline thread token goal upset :=
  reached

theorem follows_fail {fault : Fault} (reached : upset (.fault fault) token) :
    (fail fault : Effect Answer).Follows discipline thread token goal upset :=
  reached

theorem follows_ofExcept {outcome : Except Fault Answer}
    (reached : ∀ answer, outcome = .ok answer → goal answer token)
    (failed : ∀ fault, outcome = .error fault → upset (.fault fault) token) :
    (ofExcept outcome).Follows discipline thread token goal upset := by
  cases outcome with
  | ok answer =>
      exact reached answer rfl
  | error fault =>
      exact failed fault rfl

theorem follows_ofAccess {outcome : Except Overrun Answer}
    (reached : ∀ answer, outcome = .ok answer → goal answer token)
    (failed : ∀ overrun, outcome = .error overrun → upset overrun.interruption token) :
    (ofAccess outcome).Follows discipline thread token goal upset := by
  cases outcome with
  | ok answer =>
      exact reached answer rfl
  | error overrun =>
      exact failed overrun rfl

theorem Follows.weaken {effect : Effect Answer} {weaker : Answer → Token → Prop}
    {weakerUpset : Interruption → Token → Prop}
    (follows : effect.Follows discipline thread token goal upset)
    (implied : ∀ answer last, goal answer last → weaker answer last)
    (impliedUpset : ∀ interruption last, upset interruption last → weakerUpset interruption last) :
    effect.Follows discipline thread token weaker weakerUpset := by
  refine Process.Follows.weaken follows ?_
  intro outcome last reached
  cases outcome with
  | ok answer =>
      exact implied answer last reached
  | error interruption =>
      exact impliedUpset interruption last reached

/-- What is never interrupted reaches whatever an interruption ought to reach. -/
theorem Follows.of_never {effect : Effect Answer}
    (follows : effect.Follows discipline thread token goal fun _ _ => False) :
    effect.Follows discipline thread token goal upset :=
  follows.weaken (fun _ _ => id) fun _ _ never => never.elim

theorem Follows.bind {effect : Effect First} {follow : First → Effect Second}
    {between : First → Token → Prop} {goal : Second → Token → Prop}
    (first : effect.Follows discipline thread token between upset)
    (second : ∀ answer middle, between answer middle →
      (follow answer).Follows discipline thread middle goal upset) :
    (effect >>= follow).Follows discipline thread token goal upset := by
  unfold Follows
  rw [run_bind]
  refine Process.Follows.bind first ?_
  intro outcome middle reached
  cases outcome with
  | ok answer =>
      exact second answer middle reached
  | error interruption =>
      exact reached

theorem follows_work {work : Work Answer}
    (follows : work.Follows discipline thread token goal) :
    (liftM work : Effect Answer).Follows discipline thread token goal upset :=
  Process.Follows.bind follows fun _ _ reached => reached

theorem follows_read {view : Machine → Answer}
    (reached : ∀ machine hands, discipline.fits machine hands → hands thread = token →
      goal (view machine) token) :
    (read view).Follows discipline thread token goal upset :=
  follows_work (Process.follows_read reached)

theorem follows_atomically {operation : Machine → Answer × Machine}
    (reached : ∀ machine hands, discipline.fits machine hands → hands thread = token →
      discipline.permits machine (operation machine).2 ∧
        ∃ exchanged,
          discipline.fits (operation machine).2 (Function.update hands thread exchanged) ∧
            goal (operation machine).1 exchanged) :
    (atomically operation).Follows discipline thread token goal upset :=
  follows_work (Process.follows_atomically reached)

theorem follows_modify {update : Machine → Machine} {goal : Unit → Token → Prop}
    (reached : ∀ machine hands, discipline.fits machine hands → hands thread = token →
      discipline.permits machine (update machine) ∧
        ∃ exchanged,
          discipline.fits (update machine) (Function.update hands thread exchanged) ∧
            goal () exchanged) :
    (modify update).Follows discipline thread token goal upset :=
  follows_work (Process.follows_modify reached)

theorem follows_waitUntil {ready : Machine → Bool} {goal : Unit → Token → Prop}
    (excused : ∀ machine hands, discipline.fits machine hands → hands thread = token →
      ready machine = false → discipline.excuses machine hands thread)
    (reached : ∀ machine hands, discipline.fits machine hands → hands thread = token →
      ready machine = true →
        ∃ exchanged,
          discipline.fits machine (Function.update hands thread exchanged) ∧ goal () exchanged) :
    (waitUntil ready).Follows discipline thread token goal upset :=
  follows_work (Process.follows_waitUntil excused reached)

theorem follows_pause {milliseconds : Nat} {goal : Unit → Token → Prop} (reached : goal () token) :
    (pause milliseconds).Follows discipline thread token goal upset := by
  have paused : (Process.pause milliseconds : Work Unit).Follows discipline thread token goal :=
    reached
  exact follows_work paused

/-- Waiting for good needs an excuse in every state. -/
theorem follows_stall
    (excused : ∀ machine hands, discipline.fits machine hands → hands thread = token →
      discipline.excuses machine hands thread) :
    (stall : Effect Answer).Follows discipline thread token goal upset := by
  have waits : (waitUntil fun _ => false).Follows discipline thread token (fun _ _ => False)
      upset := by
    refine follows_waitUntil ?_ ?_
    · intro machine hands fits holding _
      exact excused machine hands fits holding
    · intro machine hands fits holding never
      cases never
  exact waits.bind fun _ _ never => never.elim

/-- Cleaning up takes over from wherever the effect ends, and leaves its outcome alone. -/
theorem Follows.followedBy {effect : Effect Answer} {cleanup : Work Unit}
    {between : Answer → Token → Prop} {betweenUpset : Interruption → Token → Prop}
    (first : effect.Follows discipline thread token between betweenUpset)
    (second : ∀ outcome middle, Reaches between betweenUpset outcome middle →
      cleanup.Follows discipline thread middle fun _ => Reaches goal upset outcome) :
    (effect.followedBy cleanup).Follows discipline thread token goal upset := by
  refine Process.Follows.bind first ?_
  intro outcome middle reached
  exact Process.Follows.bind (second outcome middle reached) fun _ _ last => last

theorem Follows.orElseRun {effect : Effect Answer} {cleanup : Work Unit}
    {between : Interruption → Token → Prop}
    (first : effect.Follows discipline thread token goal between)
    (second : ∀ interruption middle, between interruption middle →
      cleanup.Follows discipline thread middle fun _ => upset interruption) :
    (effect.orElseRun cleanup).Follows discipline thread token goal upset := by
  refine Process.Follows.bind first ?_
  intro outcome middle reached
  cases outcome with
  | ok answer =>
      exact reached
  | error interruption =>
      exact Process.Follows.bind (second interruption middle reached) fun _ _ last => last

/-- There is nothing to clean up after what is never interrupted. -/
theorem Follows.orElseRun_of_never {effect : Effect Answer} {cleanup : Work Unit}
    (follows : effect.Follows discipline thread token goal fun _ _ => False) :
    (effect.orElseRun cleanup).Follows discipline thread token goal upset :=
  follows.orElseRun fun _ _ never => never.elim

/-- What is attempted answers with its faults, and is interrupted by everything else. -/
theorem Follows.attempt {effect : Effect Answer} {goal : Except Fault Answer → Token → Prop}
    (follows : effect.Follows discipline thread token (fun answer => goal (.ok answer)) fun
      | .fault fault => goal (.error fault)
      | interruption => upset interruption) :
    effect.attempt.Follows discipline thread token goal upset := by
  refine Process.Follows.bind follows ?_
  intro outcome middle reached
  cases outcome with
  | ok answer =>
      exact reached
  | error interruption =>
      cases interruption with
      | fault fault =>
          exact reached
      | panic payload =>
          exact reached
      | exhausted =>
          exact reached

end Effect

/-! ## Routines -/

namespace Routine

variable {goal : Answer → Context → Token → Prop} {upset : Interruption → Context → Token → Prop}
  {context : Context}

/-- What is reached by an outcome and the context that goes with it. -/
def Reaches (goal : Answer → Context → Token → Prop)
    (upset : Interruption → Context → Token → Prop) :
    Except Interruption Answer × Context → Token → Prop
  | (.ok answer, after), token => goal answer after token
  | (.error interruption, after), token => upset interruption after token

/-- A routine that is run on a context by a thread with a token in hand follows a discipline. -/
def Follows (discipline : Discipline Thread Machine Token) (thread : Thread)
    (routine : Routine Answer) (context : Context) (token : Token)
    (goal : Answer → Context → Token → Prop) (upset : Interruption → Context → Token → Prop) :
    Prop :=
  (routine.runOn context).Follows discipline thread token (Reaches goal upset)

theorem runOn_bind (routine : Routine First) (follow : First → Routine Second)
    (context : Context) :
    (routine >>= follow).runOn context = (routine.runOn context).bind fun
      | (.ok answer, after) => (follow answer).runOn after
      | (.error interruption, after) => .done (.error interruption, after) := by
  unfold runOn
  rw [ExceptT.run_bind, StateT.run_bind, Process.bind_eq]
  congr 1
  funext ⟨outcome, after⟩
  cases outcome <;> rfl

theorem runOn_get (context : Context) :
    (get : Routine Context).runOn context = .done (.ok context, context) :=
  rfl

theorem runOn_throw (interruption : Interruption) (context : Context) :
    (throw interruption : Routine Answer).runOn context = .done (.error interruption, context) :=
  rfl

theorem runOn_effect (effect : Effect Answer) (context : Context) :
    (liftM effect : Routine Answer).runOn context =
      effect.run.bind fun outcome => .done (outcome, context) :=
  rfl

theorem runOn_work (work : Work Answer) (context : Context) :
    (liftM work : Routine Answer).runOn context =
      work.bind fun answer => .done (.ok answer, context) := by
  have lifted : (liftM work : Routine Answer).runOn context =
      (work.bind fun answer => .done (.ok answer)).bind fun outcome => .done (outcome, context) :=
    rfl
  rw [lifted, Process.bind_assoc]
  rfl

theorem follows_pure {answer : Answer} (reached : goal answer context token) :
    (pure answer : Routine Answer).Follows discipline thread context token goal upset :=
  reached

theorem follows_throw {interruption : Interruption} (reached : upset interruption context token) :
    (throw interruption : Routine Answer).Follows discipline thread context token goal upset :=
  reached

theorem follows_get {goal : Context → Context → Token → Prop}
    (reached : goal context context token) :
    (get : Routine Context).Follows discipline thread context token goal upset :=
  reached

theorem follows_set {after : Context} {goal : PUnit → Context → Token → Prop}
    (reached : goal .unit after token) :
    (set after : Routine PUnit).Follows discipline thread context token goal upset :=
  reached

theorem follows_modify {change : Context → Context} {goal : PUnit → Context → Token → Prop}
    (reached : goal .unit (change context) token) :
    (modify change : Routine PUnit).Follows discipline thread context token goal upset :=
  reached

theorem Follows.weaken {routine : Routine Answer} {weaker : Answer → Context → Token → Prop}
    {weakerUpset : Interruption → Context → Token → Prop}
    (follows : routine.Follows discipline thread context token goal upset)
    (implied : ∀ answer after last, goal answer after last → weaker answer after last)
    (impliedUpset : ∀ interruption after last, upset interruption after last →
      weakerUpset interruption after last) :
    routine.Follows discipline thread context token weaker weakerUpset := by
  refine Process.Follows.weaken follows ?_
  intro outcome last reached
  obtain ⟨result, after⟩ := outcome
  cases result with
  | ok answer =>
      exact implied answer after last reached
  | error interruption =>
      exact impliedUpset interruption after last reached

theorem Follows.bind {routine : Routine First} {follow : First → Routine Second}
    {between : First → Context → Token → Prop} {goal : Second → Context → Token → Prop}
    (first : routine.Follows discipline thread context token between upset)
    (second : ∀ answer after middle, between answer after middle →
      (follow answer).Follows discipline thread after middle goal upset) :
    (routine >>= follow).Follows discipline thread context token goal upset := by
  unfold Follows
  rw [runOn_bind]
  refine Process.Follows.bind first ?_
  intro outcome middle reached
  obtain ⟨result, after⟩ := outcome
  cases result with
  | ok answer =>
      exact second answer after middle reached
  | error interruption =>
      exact reached

theorem follows_effect {effect : Effect Answer}
    (follows : effect.Follows discipline thread token (fun answer => goal answer context)
      fun interruption => upset interruption context) :
    (liftM effect : Routine Answer).Follows discipline thread context token goal upset := by
  unfold Follows
  rw [runOn_effect]
  refine Process.Follows.bind follows ?_
  intro outcome middle reached
  cases outcome with
  | ok answer =>
      exact reached
  | error interruption =>
      exact reached

theorem follows_work {work : Work Answer}
    (follows : work.Follows discipline thread token fun answer => goal answer context) :
    (liftM work : Routine Answer).Follows discipline thread context token goal upset := by
  unfold Follows
  rw [runOn_work]
  exact Process.Follows.bind follows fun _ _ reached => reached

/-- An attempt turns a fault into an answer, and leaves the context as it is by then. -/
theorem runOn_attempt (routine : Routine Answer) (context : Context) :
    routine.attempt.runOn context = (routine.runOn context).bind fun
      | (.ok answer, after) => .done (.ok (.ok answer), after)
      | (.error (.fault fault), after) => .done (.ok (.error fault), after)
      | (.error interruption, after) => .done (.error interruption, after) := by
  unfold Routine.attempt runOn
  rw [ExceptT.run_mk, StateT.run_bind, Process.bind_eq]
  congr 1
  funext ⟨outcome, after⟩
  cases outcome with
  | ok answer =>
      rfl
  | error interruption =>
      cases interruption <;> rfl

/-- What is attempted answers with its faults, and is interrupted by everything else. -/
theorem Follows.attempt {routine : Routine Answer}
    {goal : Except Fault Answer → Context → Token → Prop}
    (follows : routine.Follows discipline thread context token
      (fun answer => goal (.ok answer)) fun
        | .fault fault => goal (.error fault)
        | interruption => upset interruption) :
    routine.attempt.Follows discipline thread context token goal upset := by
  unfold Follows
  rw [runOn_attempt]
  refine Process.Follows.bind follows ?_
  intro outcome middle reached
  obtain ⟨result, after⟩ := outcome
  cases result with
  | ok answer =>
      exact reached
  | error interruption =>
      cases interruption with
      | fault fault =>
          exact reached
      | panic payload =>
          exact reached
      | exhausted =>
          exact reached

end Routine

end WorkerMachine
