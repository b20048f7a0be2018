import WorkerMachine.Host.Session
/-!
# Global memory and constants of a host

How a session starts, and the steps of a host on global memory and on constants.
-/

namespace WorkerMachine

namespace Host

/-- Make a constant attribute and put it on the list of its package.  The attribute stays, also
where there is no such package. -/
def deferConstant (package name : String) : HostStep Unit := do
  let constant : ConstantAttribute := ⟨package, name, (← get).attributes.length⟩
  modify fun session => { session with attributes := session.attributes ++ [constant] }
  let _ ← ofExcept ((← program).package package)
  alter fun machine => ((), machine.deferConstant constant)

def deferConstants : List (String × String) → HostStep Unit
  | [] => return ()
  | (package, name) :: rest => do
    deferConstant package name
    deferConstants rest

def constants : HostStep (List (ConstantAttribute × Option Constant)) := do
  let session ← get
  return session.attributes.map fun constant =>
    (constant, session.machine.resolved.get? constant.cell)

def pendingCount (package : String) : HostStep (Option Nat) := do
  match (← program).package package with
  | .error _ => return none
  | .ok found =>
    return some (← read fun machine => ((machine.pending.get? found.name).getD []).length)

def global? (package name : String) : HostStep (Option GlobalVariable) := do
  match (← program).package package with
  | .error _ => return none
  | .ok found => return found.globals.get? name

/-- Store a value in global memory.  The answer is the bank of a value that does not fit. -/
def setGlobal (slot : Slot) (value : Value) : HostStep (Option Bank) := do
  match (← machine).globals.store slot value with
  | .ok globals => alter fun machine => (none, { machine with globals := globals })
  | .error (.mismatch actual) => return some actual
  | .error (.overrun overrun) => interrupt overrun.interruption

end Host

/-- Start a session: a machine before its first call, on which constants are put on the lists of
their packages in order. -/
def Session.start (setup : Setup) (interpreter : Interpreter) (properties : Properties)
    (constants : List (String × String)) : Except Fault Session :=
  let fresh : Session :=
    { setup := setup, interpreter := interpreter, machine := .start setup.program properties }
  match Host.run (Host.deferConstants constants) fresh with
  | (.error (.interrupted (.fault fault)), _) => .error fault
  | (_, _, session) => .ok session

end WorkerMachine
