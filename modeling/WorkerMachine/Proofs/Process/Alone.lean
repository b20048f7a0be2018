import WorkerMachine.Proofs.Process.Passing
/-!
# Threads that move alone

As long as a thread moves alone, the state tells how far it gets.  On its way it may enter a part of its
process and come out of this part with an answer; if the other threads move meanwhile, but leave the
state in the end as the thread alone would have left it, then the thread goes on as it would have alone.
-/

namespace WorkerMachine

variable {State Answer First Second : Type}

/-! ## Parts that a process enters -/

namespace Process

/-- A process that runs with nothing beside it comes to a point from which on another process is left,
and the state has become a later one. -/
inductive ComesTo (left : Process State Answer) (later : State) : Process State Answer → State → Prop
  | here : ComesTo left later left later
  | step {ready : State → Bool} {update : State → State} {next : State → Process State Answer}
      {state : State} :
      ready state = true → ComesTo left later (next state) (update state) →
      ComesTo left later (.step ready update next) state
  | wake {milliseconds : Nat} {next : Process State Answer} {state : State} :
      ComesTo left later next state → ComesTo left later (.sleep milliseconds next) state

/-- A process that runs with nothing beside it enters a part, in a later state. -/
def Enters (part : Process State First) (later : State) (process : Process State Answer)
    (state : State) : Prop :=
  ∃ rest, ComesTo (part.bind rest) later process state

variable {process left : Process State Answer} {first : Process State First}
  {part : Process State Second} {state middle later : State}

theorem ComesTo.bind (comes : ComesTo left later process state)
    (follow : Answer → Process State First) :
    ComesTo (left.bind follow) later (process.bind follow) state := by
  induction comes with
  | here => exact .here
  | step isReady _ inductionHypothesis => exact .step isReady inductionHypothesis
  | wake _ inductionHypothesis => exact .wake inductionHypothesis

theorem ComesTo.runAlone_eq (comes : ComesTo left later process state) :
    process.runAlone state = left.runAlone later := by
  induction comes with
  | here => rfl
  | step isReady _ inductionHypothesis => exact (if_pos isReady).trans inductionHypothesis
  | wake _ inductionHypothesis => exact inductionHypothesis

/-- A process comes through a part that ends. -/
theorem ComesTo.of_runAlone {answer : First} {follow : First → Process State Answer}
    (ran : first.runAlone state = some (answer, middle))
    (comes : ComesTo left later (follow answer) middle) :
    ComesTo left later (first.bind follow) state := by
  induction first generalizing state with
  | done _ =>
    cases ran
    exact comes
  | step ready update next inductionHypothesis =>
    unfold runAlone at ran
    split at ran
    · next isReady => exact .step isReady (inductionHypothesis _ ran)
    · cases ran
  | sleep milliseconds next inductionHypothesis => exact .wake (inductionHypothesis ran)

/-- What is left of a process that goes on with nothing beside it until it has ended or has to wait,
but for so many moves at most, and the state then. -/
def goAlone : Nat → Process State Answer → State → Process State Answer × State
  | 0, process, state => (process, state)
  | _ + 1, done answer, state => (done answer, state)
  | moves + 1, step ready update next, state =>
    if ready state then goAlone moves (next state) (update state)
    else (step ready update next, state)
  | moves + 1, sleep _ next, state => goAlone moves next state

theorem comesTo_goAlone (moves : Nat) (process : Process State Answer) (state : State) :
    ComesTo (process.goAlone moves state).1 (process.goAlone moves state).2 process state := by
  induction moves generalizing process state with
  | zero => exact .here
  | succ moves inductionHypothesis =>
    cases process with
    | done answer => exact .here
    | step ready update next =>
      unfold goAlone
      split
      · next isReady => exact .step isReady (inductionHypothesis _ _)
      · exact .here
    | sleep milliseconds next => exact .wake (inductionHypothesis next state)

def isHeldUp (state : State) : Process State Answer → Bool
  | step ready _ _ => !ready state
  | _ => false

theorem Enters.self (part : Process State Second) (state : State) : Enters part state part state := by
  refine ⟨.done, ?_⟩
  rw [bind_done]
  exact .here

theorem Enters.bind (enters : Enters part later process state)
    (follow : Answer → Process State First) : Enters part later (process.bind follow) state := by
  obtain ⟨rest, comes⟩ := enters
  refine ⟨fun answer => (rest answer).bind follow, ?_⟩
  rw [← bind_assoc]
  exact comes.bind follow

theorem Enters.of_runAlone {answer : First} {follow : First → Process State Answer}
    (ran : first.runAlone state = some (answer, middle))
    (enters : Enters part later (follow answer) middle) :
    Enters part later (first.bind follow) state := by
  obtain ⟨rest, comes⟩ := enters
  exact ⟨rest, .of_runAlone ran comes⟩

end Process

namespace Crowd

variable {Thread : Type} [DecidableEq Thread] {arrivals : Arrivals Thread State Answer}
  {thread : Thread} {crowd between middle : Crowd Thread State Answer}

/-! ## Schedules -/

instance (crowd : Crowd Thread State Answer) (thread : Thread) : Decidable (crowd.Waits thread) :=
  decidable_of_iff ((crowd.process thread).any (Process.isHeldUp crowd.state) = true) <| by
    rw [Option.any_eq_true]
    constructor
    · rintro ⟨process, holds, heldUp⟩
      cases process with
      | step ready update next => exact ⟨ready, update, next, holds, Bool.not_eq_true' _ ▸ heldUp⟩
      | _ => cases heldUp
    · rintro ⟨ready, update, next, holds, notReady⟩
      exact ⟨_, holds, Bool.not_eq_true' _ ▸ notReady⟩

/-- One thread of a crowd goes on until it has ended or has to wait, but for so many moves at most. -/
def goOn (crowd : Crowd Thread State Answer) (thread : Thread) (moves : Nat) :
    Crowd Thread State Answer :=
  match crowd.process thread with
  | none => crowd
  | some process =>
    crowd.after thread (process.goAlone moves crowd.state).2 (process.goAlone moves crowd.state).1

/-- Threads of a crowd go on one after the other, each for so many moves at most. -/
def goOnInTurn (crowd : Crowd Thread State Answer) (schedule : List (Thread × Nat)) :
    Crowd Thread State Answer :=
  schedule.foldl (fun reached turn => reached.goOn turn.1 turn.2) crowd

theorem leads_of_comesTo {process left : Process State Answer} {later : State}
    (begun : crowd.process thread = some process)
    (comes : Process.ComesTo left later process crowd.state) :
    crowd.Leads arrivals (crowd.after thread later left) := by
  generalize isState : crowd.state = state at comes
  induction comes generalizing crowd with
  | here =>
    subst isState
    rw [after_self begun]
    exact .refl
  | @step ready update next _ isReady _ inductionHypothesis =>
    subst isState
    have goesOn := @inductionHypothesis
      (crowd.after thread (update crowd.state) (next crowd.state)) (Function.update_self ..) rfl
    rw [after_after] at goesOn
    exact .head ⟨thread, .step begun isReady⟩ goesOn
  | @wake milliseconds next _ _ inductionHypothesis =>
    subst isState
    have goesOn := @inductionHypothesis (crowd.after thread crowd.state next)
      (Function.update_self ..) rfl
    rw [after_after] at goesOn
    exact .head ⟨thread, .wake begun⟩ goesOn

theorem leads_goOn (crowd : Crowd Thread State Answer) (thread : Thread) (moves : Nat) :
    crowd.Leads arrivals (crowd.goOn thread moves) := by
  unfold goOn
  split
  · exact .refl
  · next process begun =>
    exact leads_of_comesTo begun (process.comesTo_goAlone moves crowd.state)

/-- Whatever the turns are, a crowd may come to where they lead. -/
theorem leads_goOnInTurn (crowd : Crowd Thread State Answer) (schedule : List (Thread × Nat)) :
    crowd.Leads arrivals (crowd.goOnInTurn schedule) := by
  induction schedule generalizing crowd with
  | nil => exact .refl
  | cons turn rest inductionHypothesis =>
    exact (crowd.leads_goOn turn.1 turn.2).trans (inductionHypothesis _)

/-! ## Passing through a part -/

/-- It is enough that a thread goes on in the same way with each answer. -/
theorem Passes.congr {work : Process State First} {follow other : First → Process State Answer}
    {first : First} (passes : Passes arrivals thread follow first middle work crowd)
    (same : ∀ ended, follow ended = other ended) :
    Passes arrivals thread other first middle work crowd :=
  funext same ▸ passes

/-- A thread passes from one part of its process to the end of the next one. -/
theorem Passes.append {work : Process State First} {rest : First → Process State Second}
    {follow : Second → Process State Answer} {first : First} {second : Second}
    (passes : Passes arrivals thread (fun first => (rest first).bind follow) first between work crowd)
    (passesOn : Passes arrivals thread follow second middle (rest first) between) :
    Passes arrivals thread follow second middle (work.bind rest) crowd := by
  induction passes with
  | done _ => exact passesOn
  | @step _ ready update next begun isReady _ inductionHypothesis =>
    refine .step (begun.trans ?_) isReady ?_
    · exact congrArg some (Process.bind_assoc (.step ready update next) rest follow).symm
    · rw [Process.bind_assoc]
      exact inductionHypothesis
  | @wake _ milliseconds next begun _ inductionHypothesis =>
    refine .wake (begun.trans ?_) ?_
    · exact congrArg some (Process.bind_assoc (.sleep milliseconds next) rest follow).symm
    · rw [Process.bind_assoc]
      exact inductionHypothesis
  | others different moved _ inductionHypothesis =>
    exact .others different moved inductionHypothesis

/-- A thread that moves alone passes through its process if it passes through what is left of it. -/
theorem Passes.of_comesTo {process left : Process State First} {follow : First → Process State Answer}
    {first : First} {later : State} (begun : crowd.process thread = some (process.bind follow))
    (comes : Process.ComesTo left later process crowd.state)
    (passes : Passes arrivals thread follow first middle left
      (crowd.after thread later (left.bind follow))) :
    Passes arrivals thread follow first middle process crowd := by
  generalize isState : crowd.state = state at comes
  induction comes generalizing crowd with
  | here =>
    subst isState
    rwa [after_self begun] at passes
  | @step ready update next _ isReady _ inductionHypothesis =>
    subst isState
    rw [← after_after (update crowd.state) later ((next crowd.state).bind follow)] at passes
    exact .step begun isReady (inductionHypothesis (Function.update_self ..) passes rfl)
  | @wake milliseconds next _ _ inductionHypothesis =>
    subst isState
    rw [← after_after crowd.state later (next.bind follow)] at passes
    exact .wake begun (inductionHypothesis (Function.update_self ..) passes rfl)

/-- A thread that moves alone comes to where something else is left of its process. -/
theorem exists_left {process left : Process State First} {follow : First → Process State Answer}
    {later : State} (begun : crowd.process thread = some (process.bind follow))
    (comes : Process.ComesTo left later process crowd.state) :
    ∃ entered : Crowd Thread State Answer, crowd.Leads arrivals entered ∧ entered.state = later ∧
      entered.process thread = some (left.bind follow) ∧
      ∀ {first : First} {middle : Crowd Thread State Answer},
        Passes arrivals thread follow first middle left entered →
        Passes arrivals thread follow first middle process crowd :=
  ⟨crowd.after thread later (left.bind follow), leads_of_comesTo begun (comes.bind follow), rfl,
    Function.update_self .., .of_comesTo begun comes⟩

/-- A thread that alone would enter a part of its process and come to an answer comes to this answer
too if only the state is in the end of the part as the thread alone would have left it. -/
theorem exists_entered {process : Process State First} {part : Process State Second}
    {follow : First → Process State Answer} {later last : State} {answer : First}
    (begun : crowd.process thread = some (process.bind follow))
    (enters : Process.Enters part later process crowd.state)
    (ran : process.runAlone crowd.state = some (answer, last)) :
    ∃ (entered : Crowd Thread State Answer) (goesOn : Second → Process State Answer)
      (second : Second) (after : State),
      crowd.Leads arrivals entered ∧ entered.state = later ∧
      entered.process thread = some (part.bind goesOn) ∧
      part.runAlone later = some (second, after) ∧
      ∀ {left : Crowd Thread State Answer}, left.state = after →
        Passes arrivals thread goesOn second left part entered →
        ∃ returned, Passes arrivals thread follow answer returned process crowd ∧
          left.Leads arrivals returned ∧ returned.state = last := by
  obtain ⟨rest, comes⟩ := enters
  obtain ⟨entered, leads, isLater, isLeft, passes⟩ := exists_left begun comes
  rw [comes.runAlone_eq, Process.runAlone_bind] at ran
  obtain ⟨⟨second, after⟩, ranPart, ranRest⟩ := Option.bind_eq_some_iff.mp ran
  refine ⟨entered, fun second => (rest second).bind follow, second, after, leads, isLater, ?_, ranPart,
    ?_⟩
  · rw [isLeft, Process.bind_assoc]
  · intro left isAfter passesPart
    subst isAfter
    obtain ⟨returned, passesRest, isLast⟩ := exists_passes_of_runAlone passesPart.reached ranRest
    exact ⟨returned, passes (passesPart.append passesRest), passesRest.leads, isLast⟩

end Crowd

end WorkerMachine
