import WorkerMachine.Proofs.Process.Staying
/-!
# Processes that act once, and ways in which a process may end

A process that acts once takes at most one step, so that all it does happens at one moment,
whatever other processes do before and afterwards.
-/

namespace WorkerMachine.Process

variable {State Answer : Type}

/-- In states of a kind, a process does in at most one step, for which it never has to wait, what is
described by a relation between the state before, the answer and the state afterwards. -/
def ActsAs (allowed : State → Prop) (act : State → Answer → State → Prop) :
    Process State Answer → Prop
  | done answer => ∀ state, allowed state → act state answer state
  | step ready update next =>
    ∀ state, allowed state →
      ready state = true ∧ ∃ answer, next state = done answer ∧ act state answer (update state)
  | sleep _ next => next.ActsAs allowed act

/-- A process may end with an answer if each of its steps is taken in some state of a kind. -/
inductive MayEnd (allowed : State → Prop) : Process State Answer → Answer → Prop
  | done {answer : Answer} : MayEnd allowed (.done answer) answer
  | step {ready : State → Bool} {update : State → State} {next : State → Process State Answer}
      {state : State} {answer : Answer} :
      allowed state → ready state = true → MayEnd allowed (next state) answer →
        MayEnd allowed (.step ready update next) answer
  | sleep {milliseconds : Nat} {next : Process State Answer} {answer : Answer} :
      MayEnd allowed next answer → MayEnd allowed (.sleep milliseconds next) answer

/-- If what a process does once keeps a property and reaches a goal, so does the process. -/
theorem ActsAs.keeps {kept : State → Prop} {act : State → Answer → State → Prop}
    {goal : Answer → Prop} {process : Process State Answer} (acts : process.ActsAs kept act)
    (witnessed : ∃ state, kept state)
    (preserved : ∀ before answer after, kept before → act before answer after →
      kept after ∧ goal answer) :
    process.Keeps kept goal := by
  induction process with
  | done answer =>
      obtain ⟨state, holds⟩ := witnessed
      exact stays_done (preserved state answer state holds (acts state holds)).2
  | step ready update next inductionHypothesis =>
      intro state hands fits _
      obtain ⟨_, answer, ends, happens⟩ := acts state fits
      obtain ⟨keptAfter, reached⟩ := preserved state answer (update state) fits happens
      refine ⟨fun _ => ⟨trivial, (), keptAfter, ?_⟩, fun _ => trivial⟩
      rw [ends]
      exact stays_done reached
  | sleep milliseconds next inductionHypothesis =>
      exact inductionHypothesis acts

/-- A process that acts once follows a discipline if what it does is permitted, and brings it to a
token that fits; where it takes no step, it keeps its token. -/
theorem ActsAs.follows {Thread Token : Type} [DecidableEq Thread]
    {discipline : Discipline Thread State Token} {thread : Thread} {token : Token}
    {allowed : State → Prop} {act : State → Answer → State → Prop} {goal : Answer → Token → Prop}
    {process : Process State Answer} (acts : process.ActsAs allowed act)
    (allows : ∀ state hands, discipline.fits state hands → hands thread = token → allowed state)
    (idles : ∀ answer, (∀ state, allowed state → act state answer state) → goal answer token)
    (takes : ∀ state hands answer later, discipline.fits state hands → hands thread = token →
      act state answer later → discipline.permits state later ∧
        ∃ exchanged, discipline.fits later (Function.update hands thread exchanged) ∧
          goal answer exchanged) :
    process.Follows discipline thread token goal := by
  induction process with
  | done answer => exact idles answer acts
  | step ready update next _ =>
      intro state hands fits holding
      obtain ⟨isReady, answer, ends, happens⟩ := acts state (allows state hands fits holding)
      obtain ⟨permitted, exchanged, fitsAfter, reached⟩ :=
        takes state hands answer (update state) fits holding happens
      refine ⟨fun _ => ⟨permitted, exchanged, fitsAfter, ?_⟩, fun never => ?_⟩
      · rw [ends]
        exact reached
      · rw [isReady] at never
        cases never
  | sleep milliseconds next inductionHypothesis => exact inductionHypothesis acts

/-- However a process that keeps a property may end, it reaches its goal. -/
theorem Keeps.reached {kept : State → Prop} {goal : Answer → Prop}
    {process : Process State Answer} (keeps : process.Keeps kept goal) {answer : Answer}
    (ends : process.MayEnd kept answer) : goal answer := by
  induction ends with
  | done =>
      exact keeps.2
  | step holds isReady _ inductionHypothesis =>
      obtain ⟨taken, _⟩ := keeps _ (fun _ => ()) holds rfl
      obtain ⟨_, _, _, rest⟩ := taken isReady
      exact inductionHypothesis rest
  | sleep _ inductionHypothesis =>
      exact inductionHypothesis keeps

end WorkerMachine.Process

/-- However a routine that keeps a property may answer, it reaches its goal. -/
theorem WorkerMachine.Routine.Keeps.reached {Answer : Type} {kept : Machine → Prop}
    {routine : Routine Answer} {context after : Context} {goal : Answer → Context → Prop}
    {upset : Context → Prop} {answer : Answer} (keeps : routine.Keeps kept context goal upset)
    (ends : (routine.runOn context).MayEnd kept (.ok answer, after)) : goal answer after := by
  have run : (routine.runOn context).Keeps kept fun outcome =>
      ∀ answer, outcome.1 = .ok answer → goal answer outcome.2 := by
    refine Process.Follows.weaken keeps ?_
    rintro ⟨outcome, after⟩ last reached
    cases outcome with
    | ok answer =>
        refine ⟨reached.1, fun other same => ?_⟩
        cases same
        exact reached.2
    | error interruption =>
        refine ⟨reached.1, fun other never => ?_⟩
        cases never
  exact run.reached ends answer rfl
