import WorkerMachine.Machine.Initialization
import WorkerMachine.Script.Instruction
/-!
# Carrying out scripts

The instructions of a worker are carried out one after the other on the registers of its context.
-/

namespace WorkerMachine.Script

inductive Continuation where
  | next
  | stop (exit : WorkerExit)

def loadLocal (bank : Bank) (index : Nat) : Routine Value := do
  let context ← get
  Effect.ofAccess (context.locals.load ⟨bank, index⟩)

def storeLocal (bank : Bank) (index : Nat) (value : Value) : Routine Unit := do
  let context ← get
  let locals ← Effect.ofAccess (context.locals.storeOrKeep ⟨bank, index⟩ value)
  set { context with locals := locals }

def storeResult (bank : Bank) (index : Nat) (value : Value) : Routine Unit := do
  let context ← get
  let results ← Effect.ofAccess (context.results.storeOrKeep ⟨bank, index⟩ value)
  set { context with results := results }

/-- The sum of two numbers; other values have none. -/
def sum? : Value → Value → Option Value
  | .int left, .int right => some (.int (left + right))
  | .float left, .float right => some (.float (left + right))
  | _, _ => none

def isNumeric : Bank → Bool
  | .int | .float => true
  | _ => false

/-- Call a function of a script.  A call may take fewer results than there are, but not more. -/
def callFunction (station : Station) (package function : String) (arguments returns : List Nat) :
    Routine Unit := do
  let found ← Effect.ofExcept (station.program.package package)
  let unit ← Effect.ofExcept (Program.function found package function)
  if unit.returns.length < returns.length then
    throw (.fault (.arityMismatch unit.qualifiedName unit.returns.length returns.length))
  station.ensureInitialized found (← get)
  station.callRegisters unit arguments returns

def carryOut (station : Station) : Instruction → Routine Continuation
  | .constant target literal => do
    storeLocal literal.bank target literal.toValue
    return .next
  | .add bank target left right => do
    if isNumeric bank then
      match sum? (← loadLocal bank left) (← loadLocal bank right) with
      | some sum => storeLocal bank target sum
      | none => pure ()
      return .next
    else throw (.fault (.unsupportedType ("add on " ++ bank.name)))
  | .concat target left right => do
    let first ← loadLocal .text left
    let second ← loadLocal .text right
    match first, second with
    | .text first, .text second => storeLocal .text target (.text (first ++ second))
    | _, _ => pure ()
    return .next
  | .move bank target source => do
    storeLocal bank target (← loadLocal bank source)
    return .next
  | .storeReturn bank source slot => do
    storeResult bank slot (← loadLocal bank source)
    return .next
  | .finish => return .stop .returned
  | .raise message => do
    modify fun context => context.raise (.ofMessage message)
    return .stop .halted
  | .storeGlobal bank source slot => do
    storeGlobal ⟨bank, slot⟩ (← loadLocal bank source)
    return .next
  | .loadGlobal bank target slot => do
    let loaded ← Effect.read fun machine => machine.globals.load ⟨bank, slot⟩
    storeLocal bank target (← Effect.ofAccess loaded)
    return .next
  | .call package function arguments returns => do
    callFunction station package function arguments returns
    return .next
  | .sleep milliseconds => do
    Effect.pause milliseconds
    return .next

def carryOutAll (station : Station) : List Instruction → Routine WorkerExit
  | [] => return .halted
  | instruction :: rest => do
    match ← carryOut station instruction with
    | .next => carryOutAll station rest
    | .stop exit => return exit

def interpreter (bodies : Table BodyKey (List Instruction)) : Interpreter :=
  .ofBodies bodies fun instructions station => carryOutAll station instructions

end WorkerMachine.Script
