import WorkerMachine.Context.Basic
/-!
# The journal of a machine

A machine writes down what its scheduler does, where the scheduler is one that rehearses, and what
the bodies of workers note.
-/

namespace WorkerMachine

/-- What can be seen of a context: its own fields, and what the machine's arena knows about the
context of its name. -/
structure ContextView where
  context : Context
  state : Option ContextState
  label : Option String
  arenaParent : Option ContextId
  parentState : Option ContextState
  ancestry : List ContextId
  deriving Inhabited

inductive PropertyAnswer where
  | value (value : Option Value)
  | size (count : Nat)

inductive Note where
  | text (text : String)
  | tookError (error : Option ErrorValue)
  | mismatch (actual : Bank)
  | property (answer : PropertyAnswer)
  | observed (view : ContextView)
  | moved (outcome : Except Fault ContextState)
  | called (outcome : Except Fault Unit)
  | invoked (outcome : Except Fault (List Value))

inductive JournalEntry where
  /-- A task was handed to the scheduler. -/
  | scheduled (context : ContextId) (inCaller : Bool)
  /-- A scheduled task has ended. -/
  | ran (context : ContextId) (state : ContextState)
  /-- A task on the path of its caller has ended. -/
  | ranInCaller (context : ContextId) (state : ContextState)
  /-- A caller parked while so many contributions were outstanding. -/
  | parked (outstanding : Nat)
  /-- A body noted something; the author is the frame of its context. -/
  | noted (author : Frame) (note : Note)

end WorkerMachine
