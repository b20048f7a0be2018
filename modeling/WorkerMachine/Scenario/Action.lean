import WorkerMachine.Machine.Initialization
/-!
# Actions of rehearsed bodies

A rehearsed body is a list of actions on the context of its worker and on the machine.  Unlike the
instructions of a script, actions are not checked beforehand, may fail or panic on purpose, and
write what they see into the journal.
-/

namespace WorkerMachine.Scenario

/-- What a body does when a call of its own fails. -/
inductive FailureRule where
  /-- End with the failure. -/
  | handOn
  /-- Go on with the next action. -/
  | ignore
  deriving DecidableEq, Repr, Inhabited

inductive Action where
  /-- End the body. -/
  | finish (exit : WorkerExit)
  /-- Put an error into the error slot. -/
  | raise (error : ErrorValue)
  /-- Empty the error slot and note what it held. -/
  | takeError
  /-- End the body with a fault. -/
  | fail (fault : Fault)
  /-- Panic. -/
  | panic (payload : PanicPayload)
  /-- Store a value in a local slot; a value of another bank is noted and not stored. -/
  | setLocal (slot : Slot) (value : Value)
  /-- Store a value in a result slot; a value of another bank is noted and not stored. -/
  | setResult (slot : Slot) (value : Value)
  /-- Copy the raw content of a local slot to a result slot. -/
  | copyToResult (bank : Bank) (source target : Nat)
  /-- Store the sum of two local integers, which wraps around. -/
  | addLongs (target left right : Nat)
  /-- Store a value in a slot of global memory; a value of another bank is not stored. -/
  | setGlobal (slot : Slot) (value : Value)
  /-- Copy the value of a slot of global memory to a local slot of the same bank. -/
  | getGlobal (slot : Slot) (target : Nat)
  /-- Set a property and note the value it had. -/
  | setProperty (name : String) (value : Value)
  /-- Note the value of a property. -/
  | getProperty (name : String)
  /-- Remove a property and note the value it had. -/
  | removeProperty (name : String)
  /-- Note the number of properties. -/
  | countProperties
  /-- Note a text. -/
  | log (text : String)
  /-- Note what can be seen of the context. -/
  | observe
  /-- Move the context of this name in the machine's arena, and note the outcome. -/
  | move (next : ContextState)
  /-- Call a unit with local slots as arguments and as targets of its results, and note the outcome.
  Only a gated call makes sure that the package is initialized. -/
  | call (package unit : String) (arguments returns : List Nat) (gated : Bool)
      (onFailure : FailureRule)
  /-- Call a function by name, below this context or from a root of its own, and note the outcome.
  -/
  | invoke (package function : String) (arguments : List Value) (fromRoot : Bool)
      (onFailure : FailureRule)
  /-- Signal an event. -/
  | signal (event : String)
  /-- Wait for an event. -/
  | await (event : String)
  /-- Let time pass. -/
  | sleep (milliseconds : Nat)

def note (content : Note) : Routine Unit := do
  match (← get).frame? with
  | none => return ()
  | some author => Effect.modify (Machine.write (.noted author content))

/-- Store a value in a file.  A value of another bank leaves the file as it is and is noted. -/
def storeNoting (file : RegisterFile) (slot : Slot) (value : Value) : Routine RegisterFile :=
  match file.store slot value with
  | .ok stored => return stored
  | .error (.mismatch actual) => do
    note (.mismatch actual)
    return file
  | .error (.overrun overrun) => throw overrun.interruption

def loadLong (index : Nat) : Routine Int64 := do
  match (← Effect.ofAccess ((← get).locals.read ⟨.int, index⟩)) with
  | .long number => return number
  | _ => return 0

/-- Find a unit, pass the gate of its package if the call is gated, and call it. -/
def callUnit (station : Station) (package unit : String) (arguments returns : List Nat)
    (gated : Bool) : Routine Unit := do
  let (home, found) ← Effect.ofExcept (station.program.unit package unit)
  if gated then station.ensureInitialized home (← get)
  station.callRegisters found arguments returns

def invokeFunction (station : Station) (package function : String) (arguments : List Value)
    (fromRoot : Bool) : Routine (List Value) := do
  if fromRoot then station.callNamed package function arguments
  else station.callNamedIn (← get) package function arguments

/-- What is left of the outcome of a call after the rule for failures. -/
def FailureRule.apply {Answer : Type} (rule : FailureRule) (outcome : Except Fault Answer) :
    Routine Unit :=
  match outcome, rule with
  | .error fault, .handOn => throw (.fault fault)
  | _, _ => return ()

def perform (station : Station) : Action → Routine (Option WorkerExit)
  | .finish exit => return some exit
  | .raise error => do
    modify fun context => context.raise error
    return none
  | .takeError => do
    let error := (← get).error
    modify fun context => { context with error := none }
    note (.tookError error)
    return none
  | .fail fault => throw (.fault fault)
  | .panic payload => throw (.panic payload)
  | .setLocal slot value => do
    let locals ← storeNoting (← get).locals slot value
    modify fun context => { context with locals := locals }
    return none
  | .setResult slot value => do
    let results ← storeNoting (← get).results slot value
    modify fun context => { context with results := results }
    return none
  | .copyToResult bank source target => do
    let context ← get
    let results ← Effect.ofAccess (context.results.copySlot target context.locals ⟨bank, source⟩)
    set { context with results := results }
    return none
  | .addLongs target left right => do
    let first ← loadLong left
    let second ← loadLong right
    let context ← get
    let locals ← Effect.ofAccess (context.locals.write target (.long (first + second)))
    set { context with locals := locals }
    return none
  | .setGlobal slot value => do
    storeGlobal slot value
    return none
  | .getGlobal slot target => do
    let value ← Effect.ofAccess (← Effect.read fun machine => machine.globals.load slot)
    let locals ← storeNoting (← get).locals ⟨slot.bank, target⟩ value
    modify fun context => { context with locals := locals }
    return none
  | .setProperty name value => do
    let previous ← Effect.atomically (Machine.setProperty (← get).properties name value)
    note (.property (.value previous))
    return none
  | .getProperty name => do
    let key := (← get).properties
    note (.property (.value (← Effect.read fun machine => machine.property? key name)))
    return none
  | .removeProperty name => do
    let previous ← Effect.atomically (Machine.removeProperty (← get).properties name)
    note (.property (.value previous))
    return none
  | .countProperties => do
    let key := (← get).properties
    note (.property (.size (← Effect.read fun machine => (machine.propertiesOf key).size)))
    return none
  | .log text => do
    note (.text text)
    return none
  | .observe => do
    let context ← get
    note (.observed (← Effect.read fun machine => machine.view context))
    return none
  | .move next => do
    note (.moved (← moveContext Machine.ownArena (← get).id next))
    return none
  | .call package unit arguments returns gated onFailure => do
    let outcome ← (callUnit station package unit arguments returns gated).attempt
    note (.called outcome)
    onFailure.apply outcome
    return none
  | .invoke package function arguments fromRoot onFailure => do
    let outcome ← (invokeFunction station package function arguments fromRoot).attempt
    note (.invoked outcome)
    onFailure.apply outcome
    return none
  | .signal event => do
    Effect.modify fun machine => { machine with events := event :: machine.events }
    return none
  | .await event => do
    Effect.waitUntil fun machine => machine.events.contains event
    return none
  | .sleep milliseconds => do
    Effect.pause milliseconds
    return none

def performAll (station : Station) : List Action → Routine WorkerExit
  | [] => return .halted
  | action :: rest => do
    match ← perform station action with
    | some exit => return exit
    | none => performAll station rest

def interpreter (bodies : Table BodyKey (List Action)) : Interpreter :=
  .ofBodies bodies fun actions station => performAll station actions

end WorkerMachine.Scenario
