/-!
# The life of a context

A context is created, becomes runnable, runs, and ends completed or failed.  A running context that
blocks on an invocation waits for its response and runs again afterwards.
-/

namespace WorkerMachine

abbrev ContextId := Nat

inductive ContextState where
  | created
  | runnable
  | running
  | waiting
  | completed
  | failed
  deriving DecidableEq, Repr, Inhabited

namespace ContextState

def name : ContextState → String
  | created => "Created"
  | runnable => "Runnable"
  | running => "Running"
  | waiting => "WaitingForResponse"
  | completed => "Completed"
  | failed => "Failed"

/-- Whether a context in this state has ended. -/
def isTerminal : ContextState → Bool
  | completed | failed => true
  | _ => false

/-- The moves that a context may make. -/
def canMoveTo : ContextState → ContextState → Bool
  | created, runnable
  | runnable, running
  | running, waiting
  | waiting, running
  | running, completed
  | running, failed => true
  | _, _ => false

/-- A context that has ended makes no further move. -/
theorem canMoveTo_eq_false_of_isTerminal {state : ContextState} (next : ContextState)
    (terminal : state.isTerminal = true) : state.canMoveTo next = false := by
  cases state <;> cases next <;> simp_all [isTerminal, canMoveTo]

end ContextState

end WorkerMachine
