import WorkerMachine.Registers.Layout
/-!
# Callable units

A callable unit has a declared signature and one or more workers.  The first worker runs on the path
of the caller and the others are scheduled, so a unit always has a first worker: a unit that
declares none has a single worker that needs no registers beyond its parameters.
-/

namespace WorkerMachine

/-- One body of a callable unit, which can run beside the others. -/
structure Worker where
  name : String
  index : Nat
  locals : BankSizes
  deriving DecidableEq, Repr, Inhabited

inductive UnitKind where
  | function
  | action
  | init
  deriving DecidableEq, Repr, Inhabited

def UnitKind.name : UnitKind → String
  | function => "function"
  | action => "action"
  | init => "init"

structure Callable where
  package : String
  name : String
  kind : UnitKind
  params : Layout
  returns : Layout
  callerWorker : Worker
  scheduledWorkers : List Worker
  deriving DecidableEq, Repr, Inhabited

def defaultWorkerName : String := "default"

def initUnitName : String := "<init>"

namespace Callable

def workers (unit : Callable) : List Worker :=
  unit.callerWorker :: unit.scheduledWorkers

def qualifiedName (unit : Callable) : String :=
  unit.package ++ ":" ++ unit.name

/-- Number workers from an index on, and give each at least the registers of its parameters. -/
def numberWorkers (params : BankSizes) : Nat → List (String × BankSizes) → List Worker
  | _, [] => []
  | index, (name, locals) :: rest =>
    ⟨name, index, locals.max params⟩ :: numberWorkers params (index + 1) rest

/-- Build a unit from its declaration; a type without a bank in its signature is refused. -/
def build (package name : String) (kind : UnitKind) (params returns : List DataType)
    (declared : List (String × BankSizes)) : Except Fault Callable :=
  match Layout.ofTypes params with
  | .error fault => .error fault
  | .ok paramLayout =>
    match Layout.ofTypes returns with
    | .error fault => .error fault
    | .ok returnLayout =>
      let unit (first : Worker) (others : List Worker) : Callable :=
        ⟨package, name, kind, paramLayout, returnLayout, first, others⟩
      match numberWorkers paramLayout.sizes 0 declared with
      | [] => .ok (unit ⟨defaultWorkerName, 0, paramLayout.sizes⟩ [])
      | first :: others => .ok (unit first others)

def checkArity (unit : Callable) (actual : Nat) : Except Fault Unit :=
  if unit.params.length = actual then .ok ()
  else .error (.arityMismatch unit.qualifiedName unit.params.length actual)

end Callable

end WorkerMachine
