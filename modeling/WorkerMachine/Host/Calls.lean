import WorkerMachine.Host.Contexts
/-!
# Calls of a host

The steps of a host that call units: by name, with values, with registers, and by beginning an
invocation that is joined later.
-/

namespace WorkerMachine.Host

def callNamed (parent : Option String) (package function : String) (arguments : List Value) :
    HostStep (List Value) := do
  match parent with
  | none => perform ((← station).callNamed package function arguments)
  | some name => perform ((← station).callNamedIn (← context name) package function arguments)

structure NamedCall where
  package : String
  function : String
  arguments : List Value

/-- Make calls by name beside each other, each on a thread of its own. -/
def callBeside (calls : List NamedCall) : HostStep (List (Except Interruption (List Value))) := do
  let session ← get
  let first := session.machine.nextThread
  let works : List (Work (ThreadId × Except Interruption (List Value))) :=
    (calls.zipIdx first).map fun (call, thread) => do
      let station := session.stationOf thread
      return (thread, ← (station.callNamed call.package call.function call.arguments).run)
  let machine := { session.machine with nextThread := first + calls.length }
  let (answers, after) := Session.runBeside { session with machine := machine } works
  set after
  return (List.range' first calls.length).map fun thread =>
    (answers.lookup thread).getD (.error .exhausted)

def callValues (name package unit : String) (arguments : List Value) : HostStep (List Value) := do
  let found ← Host.unit package unit
  perform ((← station).callValues found (← context name) arguments)

def callRegisters (name package unit : String) (arguments returns : List Nat) : HostStep Unit := do
  let found ← Host.unit package unit
  onContext name ((← station).callRegisters found arguments returns)

def callUnit (name package unit : String) : HostStep Unit := do
  let found ← Host.unit package unit
  onContext name ((← station).callUnit found)

def ensureInitialized (name package : String) : HostStep Unit := do
  let found ← ofExcept ((← program).package package)
  perform ((← station).ensureInitialized found (← context name))

def runQueue : HostStep Unit := do
  perform (← station).drainQueue

/-! ## Invocations -/

def invocation (name : String) : HostStep Invocation := do
  match (← get).invocations.get? name with
  | some invocation => return invocation
  | none => throw (.unknownInvocation name)

def takeInvocation (name : String) : HostStep Invocation := do
  let found ← invocation name
  modify fun session => { session with invocations := session.invocations.erase name }
  return found

structure Begun where
  invocation : Invocation
  response : Response
  parentState : Option ContextState

/-- Keep an invocation under a name and tell how it begins.  One that was kept under this name is
given up afterwards. -/
def keepInvocation (name : String) (parent : Context) (invocation : Invocation) :
    HostStep Begun := do
  let earlier := (← get).invocations.get? name
  modify fun session =>
    { session with
      invocations := session.invocations.insert name invocation
      responses := session.responses.insert name invocation.response }
  let begun ← read fun machine =>
    ⟨invocation, machine.response invocation.response, (machine.view parent).state⟩
  if let some earlier := earlier then work earlier.abandon
  return begun

def response (name : String) : HostStep Response := do
  match (← get).responses.get? name with
  | some id => read fun machine => machine.response id
  | none => throw (.unknownInvocation name)

def begin (name parent package unit : String) (source : RegisterFile) (arguments : List Nat) :
    HostStep Begun := do
  let found ← Host.unit package unit
  let above ← context parent
  keepInvocation name above (← perform ((← station).dispatch found above source arguments false))

def runFirst (name : String) : HostStep (Option ContextState) := do
  let found ← invocation name
  let started := { found with callerTask := none }
  modify fun session =>
    { session with invocations := session.invocations.insert name started }
  perform ((← station).runFirst found)

/-- Join an invocation.  The answer also tells the target registers as they were left. -/
def join (name : String) (target : RegisterFile) (returns : List Nat) :
    HostStep (Except Fault Unit × RegisterFile) := do
  let found ← takeInvocation name
  let (outcome, after) ← work ((← station).join found target returns)
  return (← attempt (ofOutcome outcome), after)

def abandon (name : String) : HostStep Unit := do
  work (← takeInvocation name).abandon

end WorkerMachine.Host
