/-!
# Processes

A process is a computation over a shared state that is cut into atomic steps.  A step may have to
wait until the state is ready for it; between two steps other processes may change the state.  The
laws of a monad hold, so processes are composed like programs.
-/

namespace WorkerMachine

/-- A computation over a shared state, step by step. -/
inductive Process (State Answer : Type) : Type where
  /-- The process has ended. -/
  | done (answer : Answer)
  /-- As soon as `ready` holds, the state is updated; `next` sees the state before the update. -/
  | step (ready : State → Bool) (update : State → State) (next : State → Process State Answer)
  /-- Time passes before the process goes on. -/
  | sleep (milliseconds : Nat) (next : Process State Answer)

namespace Process

variable {State Answer First Second Third : Type}

/-- Run one process and then another one that depends on its answer. -/
def bind : Process State First → (First → Process State Second) → Process State Second
  | done answer, follow => follow answer
  | step ready update next, follow => step ready update fun state => (next state).bind follow
  | sleep milliseconds next, follow => sleep milliseconds (next.bind follow)

instance : Monad (Process State) where
  pure := done
  bind := bind

/-- A step that always can be taken: it answers with a part of the state and changes the state. -/
def atomically (operation : State → Answer × State) : Process State Answer :=
  step (fun _ => true) (fun state => (operation state).2) fun state => done (operation state).1

def read (view : State → Answer) : Process State Answer :=
  step (fun _ => true) id fun state => done (view state)

/-- Change the state. -/
def modify (update : State → State) : Process State Unit :=
  step (fun _ => true) update fun _ => done ()

def waitUntil (ready : State → Bool) : Process State Unit :=
  step ready id fun _ => done ()

def pause (milliseconds : Nat) : Process State Unit :=
  sleep milliseconds (done ())

/-- Run a process with nothing beside it.  There is no answer where it waits for a state that only
another process could bring about. -/
def runAlone : Process State Answer → State → Option (Answer × State)
  | done answer, state => some (answer, state)
  | step ready update next, state =>
    if ready state then runAlone (next state) (update state) else none
  | sleep _ next, state => next.runAlone state

/-! ## Laws -/

@[simp] theorem pure_eq_done (answer : Answer) :
    (pure answer : Process State Answer) = done answer := rfl

@[simp] theorem bind_eq (process : Process State First) (follow : First → Process State Second) :
    (process >>= follow) = process.bind follow := rfl

@[simp] theorem done_bind (answer : First) (follow : First → Process State Second) :
    (done answer).bind follow = follow answer := rfl

theorem bind_done (process : Process State Answer) : process.bind done = process := by
  induction process with
  | done answer => rfl
  | step ready update next inductionHypothesis =>
    simp only [bind, step.injEq, true_and]
    funext state
    exact inductionHypothesis state
  | sleep milliseconds next inductionHypothesis =>
    simp only [bind, inductionHypothesis]

theorem bind_assoc (process : Process State First) (follow : First → Process State Second)
    (last : Second → Process State Third) :
    (process.bind follow).bind last = process.bind fun answer => (follow answer).bind last := by
  induction process with
  | done answer => rfl
  | step ready update next inductionHypothesis =>
    simp only [bind, step.injEq, true_and]
    funext state
    exact inductionHypothesis state
  | sleep milliseconds next inductionHypothesis =>
    simp only [bind, inductionHypothesis]

instance : LawfulMonad (Process State) :=
  LawfulMonad.mk' (Process State) bind_done (fun _ _ => rfl) bind_assoc

/-- Running two processes one after the other runs the second one from where the first one ended. -/
theorem runAlone_bind (process : Process State First) (follow : First → Process State Second)
    (state : State) :
    (process.bind follow).runAlone state =
      (process.runAlone state).bind fun (answer, after) => (follow answer).runAlone after := by
  induction process generalizing state with
  | done answer => rfl
  | step ready update next inductionHypothesis =>
    by_cases isReady : ready state = true
    · simp [bind, runAlone, isReady, inductionHypothesis]
    · simp [bind, runAlone, isReady]
  | sleep milliseconds next inductionHypothesis =>
    simp [bind, runAlone, inductionHypothesis]

@[simp] theorem runAlone_atomically (operation : State → Answer × State) (state : State) :
    (atomically operation).runAlone state = some (operation state) := rfl

@[simp] theorem runAlone_read (view : State → Answer) (state : State) :
    (read view).runAlone state = some (view state, state) := rfl

@[simp] theorem runAlone_modify (update : State → State) (state : State) :
    (modify update).runAlone state = some ((), update state) := rfl

end Process

end WorkerMachine
