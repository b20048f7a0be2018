import Mathlib.Logic.Function.Basic
import Mathlib.Logic.Relation
import WorkerMachine.Process.Basic
/-!
# Crowds of processes

A crowd is any number of processes over one state, each run by a thread.  At every moment any thread
whose step is ready may take it, a sleeper may wake, and new threads may come, so the moves of a
crowd make up every interleaving of the atomic steps of its processes.
-/

namespace WorkerMachine

/-- Processes over one state, each under the thread that runs it. -/
structure Crowd (Thread State Answer : Type) where
  state : State
  process : Thread → Option (Process State Answer)

/-- Which threads may come in a state, with which process, and what becomes of the state. -/
abbrev Arrivals (Thread State Answer : Type) :=
  State → Thread → Process State Answer → State → Prop

namespace Crowd

variable {Thread State Answer : Type} [DecidableEq Thread]

def after (crowd : Crowd Thread State Answer) (thread : Thread) (state : State)
    (process : Process State Answer) : Crowd Thread State Answer :=
  ⟨state, Function.update crowd.process thread (some process)⟩

/-- One move of a crowd, made by a thread. -/
inductive Move (arrivals : Arrivals Thread State Answer) (crowd : Crowd Thread State Answer)
    (thread : Thread) : Crowd Thread State Answer → Prop
  /-- The thread takes a step that is ready. -/
  | step {ready : State → Bool} {update : State → State}
      {next : State → Process State Answer} :
      crowd.process thread = some (.step ready update next) →
      ready crowd.state = true →
      Move arrivals crowd thread
        (crowd.after thread (update crowd.state) (next crowd.state))
  /-- The thread wakes. -/
  | wake {milliseconds : Nat} {next : Process State Answer} :
      crowd.process thread = some (.sleep milliseconds next) →
      Move arrivals crowd thread (crowd.after thread crowd.state next)
  /-- The thread comes in. -/
  | arrive {process : Process State Answer} {state : State} :
      crowd.process thread = none →
      arrivals crowd.state thread process state →
      Move arrivals crowd thread (crowd.after thread state process)

/-- A crowd may come to be another one by any number of moves. -/
def Leads (arrivals : Arrivals Thread State Answer) :
    Crowd Thread State Answer → Crowd Thread State Answer → Prop :=
  Relation.ReflTransGen fun crowd later => ∃ thread, crowd.Move arrivals thread later

/-- A thread has to wait until others change the state. -/
def Waits (crowd : Crowd Thread State Answer) (thread : Thread) : Prop :=
  ∃ ready update next,
    crowd.process thread = some (.step ready update next) ∧ ready crowd.state = false

def Ended (crowd : Crowd Thread State Answer) (thread : Thread) (answer : Answer) : Prop :=
  crowd.process thread = some (.done answer)

end Crowd

end WorkerMachine
