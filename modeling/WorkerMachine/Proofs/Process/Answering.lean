import WorkerMachine.Proofs.Process.Crowd
/-!
# Processes that cannot be kept from their answer

Some processes rely on nothing but one property of the state, and never wait as long as it holds.
Where the property holds for good, other threads can neither keep such a process from its end nor
change what it amounts to.
-/

namespace WorkerMachine

variable {Thread State Answer First : Type} [DecidableEq Thread]
  {held : State → Prop}

/-- As long as the state has a property whenever the process goes on, the process does not wait, and
it ends with an answer of some kind. -/
def Process.Answers (held : State → Prop) : Process State Answer → (Answer → Prop) → Prop
  | done answer, goal => goal answer
  | step ready _ next, goal =>
    ∀ state, held state → ready state = true ∧ (next state).Answers held goal
  | sleep _ next, goal => next.Answers held goal

namespace Crowd

variable {arrivals : Arrivals Thread State Answer} {crowd later : Crowd Thread State Answer}
  {thread : Thread} {goal : First → Prop} {follow : First → Process State Answer}

/-- What a thread of a crowd has come to that began a process and goes on with its answer: it is
about to get an answer of some kind, from which nothing keeps it, or it has gone on with one. -/
inductive Gets (arrivals : Arrivals Thread State Answer) (held : State → Prop)
    (goal : First → Prop) (follow : First → Process State Answer)
    (crowd : Crowd Thread State Answer) (thread : Thread) (later : Crowd Thread State Answer) : Prop
  | pending {rest : Process State First} :
      rest.Answers held goal → later.process thread = some (rest.bind follow) →
      Gets arrivals held goal follow crowd thread later
  | answered {answer : First} {middle : Crowd Thread State Answer} :
      goal answer → crowd.Leads arrivals middle → middle.process thread = some (follow answer) →
      middle.Leads arrivals later → Gets arrivals held goal follow crowd thread later

/-- A move of a crowd brings a thread nearer to its answer, or leaves it where it is. -/
theorem Gets.move {next : Crowd Thread State Answer} (leads : crowd.Leads arrivals later)
    (holds : held later.state) (gets : crowd.Gets arrivals held goal follow thread later)
    {mover : Thread} (moved : later.Move arrivals mover next) :
    crowd.Gets arrivals held goal follow thread next := by
  have further {middle : Crowd Thread State Answer} (before : middle.Leads arrivals later) :
      middle.Leads arrivals next :=
    before.tail ⟨mover, moved⟩
  cases gets with
  | answered reached before goesOn after =>
      exact .answered reached before goesOn (further after)
  | @pending rest answers isRest =>
      -- A move of the thread itself leaves less of the process; the moves of others leave all of it.
      by_cases same : mover = thread
      · subst same
        have within {remaining : Process State First} {state : State}
            (isNext : next = later.after mover state (remaining.bind follow)) :
            next.process mover = some (remaining.bind follow) := by
          rw [isNext]
          exact Function.update_self ..
        cases rest with
        | done answer =>
            exact .answered answers leads isRest (further .refl)
        | step ready update rest =>
            cases moved with
            | step isStep isReady =>
                cases isRest.symm.trans isStep
                exact .pending (answers _ holds).2 (within rfl)
            | wake isSleep => cases isRest.symm.trans isSleep
            | arrive missing _ => cases isRest.symm.trans missing
        | sleep milliseconds rest =>
            cases moved with
            | step isStep _ => cases isRest.symm.trans isStep
            | wake isSleep =>
                cases isRest.symm.trans isSleep
                have awake : rest.Answers held goal := answers
                exact .pending awake (within rfl)
            | arrive missing _ => cases isRest.symm.trans missing
      · have untouched : next.process thread = later.process thread := by
          cases moved <;> exact Function.update_of_ne (Ne.symm same) ..
        exact .pending answers (untouched.trans isRest)

end Crowd

end WorkerMachine
