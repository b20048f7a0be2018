import WorkerMachine.Machine.Invocation
/-!
# Initialization of packages

A package is initialized by running its init unit from a fresh root below the caller and then
reading the constants that wait for the package.  The gate lets one caller do this; the outcome
holds for good.  A call by name finds the function, checks the number of arguments, makes sure that
the package is initialized, and only then invokes the function.
-/

namespace WorkerMachine

/-! ## Constants -/

/-- Read the global that a constant names.  Its type must be one that constants can have, and its
slot must lie inside global memory. -/
def readConstant (package : Package) (globals : RegisterFile) (constant : ConstantAttribute) :
    Except Fault Constant :=
  match package.globals.get? constant.name with
  | none => .error (.unknownConstant constant.package constant.name)
  | some variableEntry =>
    let unsupported : Fault :=
      .unsupportedConstantType constant.package constant.name variableEntry.type.name
    match variableEntry.type.isConstantType, variableEntry.type.bank? with
    | true, some bank =>
      match globals.get? ⟨bank, variableEntry.index⟩ with
      | none => .error (.globalOutOfRange constant.package constant.name bank variableEntry.index)
      | some value =>
        match Constant.ofValue? value with
        | some read => .ok read
        | none => .error unsupported
    | _, _ => .error unsupported

/-- Read constants in order, up to the first one that cannot be read. -/
def readConstants (package : Package) (globals : RegisterFile) :
    List ConstantAttribute → Except Fault (List (Nat × Constant))
  | [] => .ok []
  | constant :: rest =>
    match readConstant package globals constant with
    | .error fault => .error fault
    | .ok value =>
      match readConstants package globals rest with
      | .error fault => .error fault
      | .ok values => .ok ((constant.cell, value) :: values)

/-- Give each constant its value, unless it has one. -/
def Machine.resolveConstants (machine : Machine) (values : List (Nat × Constant)) : Machine :=
  values.foldl (fun machine value => machine.resolveConstant value.1 value.2) machine

/-- Resolve the constants that wait for a package, all of them or none. -/
def resolvePending (package : Package) : Effect Unit := do
  let waiting ← Effect.atomically (Machine.takePending package.name)
  match ← Effect.read fun machine => readConstants package machine.globals waiting with
  | .ok values => Effect.modify fun machine => machine.resolveConstants values
  | .error fault =>
    Effect.modify (Machine.restorePending package.name waiting)
    Effect.fail fault

/-! ## Inits -/

def alterGate (change : Gate → Gate) : Effect Unit :=
  Effect.modify fun machine => { machine with gate := change machine.gate }

/-- Note that a context and a thread call the init unit of a package. -/
def Machine.callInit (package : String) (mark : InitMark) (machine : Machine) : Machine :=
  { machine with gate := machine.gate.mark package mark }.record (.initCalled package mark.context)

def Tallies.addInit (tallies : Tallies) : Tallies :=
  { tallies with inits := tallies.inits + 1 }

/-- What an init comes to: a raised error and a fault both are failures of the package, except for a
fatal fault, which is handed on as it is. -/
def initOutcome (traceStyle : TraceStyle) (package : String) (raised : Option ErrorValue)
    (outcome : Except Fault Unit) : Except Fault Unit :=
  match raised, outcome with
  | some error, _ => .error (.packageInitFailure package (traceStyle.render error))
  | none, .error fault =>
    if fault.isFatal then .error fault else .error (.packageInitFailure package fault.message)
  | none, .ok () => .ok ()

namespace Station

/-- Run the init unit of a package, if it has one, and resolve the constants that wait for the
package. -/
def runInit (station : Station) (package : Package) (parent : Context) : Effect Unit := do
  match package.init with
  | none => resolvePending package
  | some unit =>
    tally Tallies.addInit
    let context ← parent.openChild
    Effect.followedBy (do
        Effect.modify (Machine.callInit package.name ⟨context.id, station.thread⟩)
        let (outcome, after) ← ((station.callUnit unit).attempt.runOn context : Work _)
        let invoked ← ExceptT.mk (pure outcome)
        alterGate fun gate => gate.unmark package.name
        Effect.ofExcept (initOutcome station.traceStyle package.name after.error invoked)
        resolvePending package)
      context.release

/-- Go through at most `bound` phases of the gate of a package, each of which is one step. -/
def advancePhases (station : Station) (package : String) (caller : ContextId) :
    Nat → GatePhase → Work GatePhase
  | 0, phase => .done phase
  | _ + 1, .answered answer => .done (.answered answer)
  | bound + 1, phase =>
    let operation (machine : Machine) : GatePhase × Gate :=
      machine.gate.advance station.thread package
        (fun context => ((machine.arena Machine.ownArena).ancestry caller).contains context) phase
    .step (fun machine => machine.gate.ready package phase)
      (fun machine => { machine with gate := (operation machine).2 })
      fun machine => station.advancePhases package caller bound (operation machine).1

/-- A call that has not got its answer goes through the next phase. -/
theorem advancePhases_succ (station : Station) (package : String) (caller : ContextId) (bound : Nat)
    {phase : GatePhase} (unanswered : phase.answer? = none) :
    station.advancePhases package caller (bound + 1) phase =
      .step (fun machine => machine.gate.ready package phase)
        (fun machine => { machine with
          gate := (machine.gate.advance station.thread package
            (fun context => ((machine.arena Machine.ownArena).ancestry caller).contains context)
            phase).2 })
        fun machine => station.advancePhases package caller bound
          (machine.gate.advance station.thread package
            (fun context => ((machine.arena Machine.ownArena).ancestry caller).contains context)
            phase).1 := by
  cases phase with
  | answered answer => cases unanswered
  | _ => rfl

theorem advancePhases_answered (station : Station) (package : String) (caller : ContextId)
    (bound : Nat) (answer : GateAnswer) :
    station.advancePhases package caller bound (.answered answer) = .done (.answered answer) := by
  cases bound <;> rfl

/-- Pass the gate of a package: up to the count of the waits, which bounds the rest, and then up to
the answer. -/
def passGate (station : Station) (package : String) (caller : ContextId) : Work GatePhase := do
  let counted ← station.advancePhases package caller GatePhase.lookForMark.untilCounted
    .lookForMark
  station.advancePhases package caller counted.untilAnswered counted

def ensureInitialized (station : Station) (package : Package) (caller : Context) : Effect Unit := do
  match (← (station.passGate package.name caller.id : Work _)).answer? with
  | none => throw .exhausted
  | some (.outcome outcome) => Effect.ofExcept outcome
  | some .claimed =>
    let outcome ← Effect.orElseRun (station.runInit package caller).attempt
      (Process.modify fun machine =>
        { machine with gate := machine.gate.setCell package.name .untouched })
    alterGate fun gate => gate.setCell package.name (.settled outcome)
    alterGate fun gate => gate.withdraw station.thread
    Effect.ofExcept outcome

/-! ## Calls by name -/

/-- Call a function by name below a context. -/
def callNamedIn (station : Station) (parent : Context) (package function : String)
    (arguments : List Value) : Effect (List Value) := do
  let found ← Effect.ofExcept (station.program.package package)
  let unit ← Effect.ofExcept (Program.function found package function)
  Effect.ofExcept (unit.checkArity arguments.length)
  station.ensureInitialized found parent
  station.callValues unit parent arguments

def callNamed (station : Station) (package function : String) (arguments : List Value) :
    Effect (List Value) := do
  let root ← openRoot Machine.ownArena Machine.ownProperties
  Effect.followedBy (station.callNamedIn root package function arguments) root.release

end Station

end WorkerMachine
