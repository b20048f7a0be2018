import WorkerMachine.Context.State
import WorkerMachine.Value.Category
import WorkerMachine.Value.ErrorValue
/-!
# Faults and interruptions

A fault is an error that a call hands to its direct caller; only the failure of a package's
initialization is fatal to the whole chain of calls.  An interruption is any way in which an action
ends without a result: by a fault, by a panic that unwinds to the nearest worker, or by reaching the
bound on nesting.
-/

namespace WorkerMachine

/-- The causes for which a call can fail. -/
inductive Fault where
  | arityMismatch (unit : String) (expected actual : Nat)
  | packageNotFound (package : String)
  | functionNotFound (package function : String)
  | bankMismatch (position : Nat) (declared actual : Bank)
  | unsupportedType (type : String)
  | unsupportedConstantType (package name type : String)
  | unknownConstant (package name : String)
  | globalOutOfRange (package name : String) (bank : Bank) (index : Nat)
  | propagated (error : ErrorValue)
  | packageInitFailure (package trace : String)
  | initCycle (package : String)
  | noWorkerBody (unit : String) (worker : Nat)
  | workerPanicked (unit worker message : String)
  | schedule (message : String)
  | invalidTransition (context : ContextId) (source : Option ContextState) (target : ContextState)
  | configuration (message : String)
  deriving DecidableEq, Repr, Inhabited

namespace Fault

/-- The state that a refused move started from, or its absence. -/
private def sourceText : Option ContextState → String
  | some state => "Some(" ++ state.name ++ ")"
  | none => "None"

def message : Fault → String
  | arityMismatch unit expected actual =>
    "arity mismatch calling '" ++ unit ++ "': expected " ++ toString expected
      ++ " argument(s), got " ++ toString actual
  | packageNotFound package => "package '" ++ package ++ "' is not defined"
  | functionNotFound package function =>
    "function '" ++ function ++ "' is not defined in package '" ++ package ++ "'"
  | bankMismatch position declared actual =>
    "argument " ++ toString position ++ ": declared " ++ declared.name ++ ", found " ++ actual.name
  | unsupportedType type => "type '" ++ type ++ "' has no register category"
  | unsupportedConstantType package name type =>
    "constant '" ++ package ++ ":" ++ name ++ "' has type '" ++ type
      ++ "', which cannot be a constant"
  | unknownConstant package name =>
    "constant '" ++ package ++ ":" ++ name ++ "' is not a global of its package"
  | globalOutOfRange package name bank index =>
    "constant '" ++ package ++ ":" ++ name ++ "' lives at " ++ bank.name ++ " slot "
      ++ toString index ++ ", outside global memory"
  | propagated error => error.message
  | packageInitFailure _ trace => "error: " ++ trace
  | initCycle package => "initialization of package '" ++ package ++ "' depends on itself"
  | noWorkerBody unit worker =>
    "no body registered for worker " ++ toString worker ++ " of '" ++ unit ++ "'"
  | workerPanicked unit worker message =>
    "worker '" ++ worker ++ "' of '" ++ unit ++ "' panicked: " ++ message
  | schedule message => "failed to schedule worker: " ++ message
  | invalidTransition context source target =>
    "context " ++ toString context ++ " cannot move from " ++ sourceText source ++ " to "
      ++ target.name
  | configuration message => "invalid configuration: " ++ message

/-- Whether a fault aborts the whole chain of calls. -/
def isFatal : Fault → Bool
  | packageInitFailure _ _ => true
  | _ => false

/-- The error value that a fault hands on, if it hands one on. -/
def propagated? : Fault → Option ErrorValue
  | propagated error => some error
  | _ => none

end Fault

/-- An access past the end of a register bank. -/
structure Overrun where
  length : Nat
  index : Nat
  deriving DecidableEq, Repr, Inhabited

def Overrun.message (overrun : Overrun) : String :=
  "index out of bounds: the len is " ++ toString overrun.length ++ " but the index is "
    ++ toString overrun.index

/-- What a panic carries: a text, or something that is no text. -/
inductive PanicPayload where
  | text (message : String)
  | other
  deriving DecidableEq, Repr, Inhabited

def PanicPayload.message : PanicPayload → String
  | text message => message
  | other => "unknown panic payload"

/-- The ways in which an action ends without a result. -/
inductive Interruption where
  | fault (fault : Fault)
  | panic (payload : PanicPayload)
  | exhausted
  deriving DecidableEq, Repr, Inhabited

def Overrun.interruption (overrun : Overrun) : Interruption :=
  .panic (.text overrun.message)

end WorkerMachine
