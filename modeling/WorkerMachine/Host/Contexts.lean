import WorkerMachine.Host.Session
/-!
# Contexts of a host

The steps of a host on the contexts that it keeps, on the arena, and on properties.
-/

namespace WorkerMachine.Host

variable {Answer : Type}

def context (name : String) : HostStep Context := do
  match (← get).contexts.get? name with
  | some context => return context
  | none => throw (.unknownContext name)

def update (name : String) (context : Context) : HostStep Unit :=
  modify fun session => { session with contexts := session.contexts.insert name context }

/-- Keep a context under a name and tell what can be seen of it.  A context that was kept under this
name is released afterwards. -/
def keep (name : String) (context : Context) : HostStep ContextView := do
  let earlier := (← get).contexts.get? name
  update name context
  let seen ← read fun machine => machine.view context
  if let some earlier := earlier then work earlier.release
  return seen

/-- Run a routine on a context and keep the changes, however the routine ends. -/
def onContext (name : String) (routine : Routine Answer) : HostStep Answer := do
  let (outcome, after) ← work (routine.runOn (← context name))
  update name after
  ofOutcome outcome

def view (name : String) : HostStep ContextView := do
  let found ← context name
  read fun machine => machine.view found

def openRoot (name : String) : HostStep ContextView := do
  keep name (← perform (WorkerMachine.openRoot Machine.ownArena Machine.ownProperties))

def openChild (parent name : String) : HostStep ContextView := do
  let above ← context parent
  keep name (← perform above.openChild)

/-- Open a root in an arena and with properties of its own.  The answer also tells that arena as it
was before and as it is afterwards. -/
def openForeignRoot (name : String) : HostStep (ContextView × Arena × Arena) := do
  let arena ← alter Machine.addArena
  let properties ← alter Machine.addProperties
  let before ← read fun machine => machine.arena arena
  let opened ← perform (WorkerMachine.openRoot arena properties)
  let after ← read fun machine => machine.arena arena
  return (← keep name opened, before, after)

/-- Release a context; the answer is whether there was one. -/
def release (name : String) : HostStep Bool := do
  match (← get).contexts.get? name with
  | none => return false
  | some found =>
    modify fun session => { session with contexts := session.contexts.erase name }
    work found.release
    return true

def setLocals (name : String) (locals : RegisterFile) : HostStep Unit := do
  update name { ← context name with locals := locals }

def raise (name : String) (error : ErrorValue) : HostStep Unit := do
  update name ((← context name).raise error)

def takeError (name : String) : HostStep (Option ErrorValue) := do
  let found ← context name
  update name { found with error := none }
  return found.error

def execute (name : String) : HostStep WorkerExit := do
  onContext name ((← get).interpreter (← station))

def moveId (id : ContextId) (next : ContextState) : HostStep ContextState := do
  ofExcept (← alter (Machine.inArena Machine.ownArena fun records => records.transition id next))

def move (name : String) (next : ContextState) : HostStep ContextState := do
  moveId (← context name).id next

/-! ## Properties -/

def propertiesKey : Option String → HostStep PropertiesKey
  | some name => return (← context name).properties
  | none => return Machine.ownProperties

def setProperty (owner : Option String) (name : String) (value : Value) :
    HostStep (Option Value) := do
  alter (Machine.setProperty (← propertiesKey owner) name value)

def property? (owner : Option String) (name : String) : HostStep (Option Value) := do
  let key ← propertiesKey owner
  read fun machine => machine.property? key name

def removeProperty (owner : Option String) (name : String) : HostStep (Option Value) := do
  alter (Machine.removeProperty (← propertiesKey owner) name)

def countProperties (owner : Option String) : HostStep Nat := do
  let key ← propertiesKey owner
  read fun machine => (machine.propertiesOf key).size

end WorkerMachine.Host
