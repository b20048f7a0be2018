import WorkerMachine.Manifest.Basic
import WorkerMachine.Program.Basic
/-!
# Loading manifests

Loading turns a manifest into a program and the bodies of its workers.  Every global must lie inside
global memory, every function must have a name, and every instruction must be accepted for the
registers of its worker.  The first thing that is wrong decides the error.
-/

namespace WorkerMachine.Manifest

inductive LoadError where
  | fault (fault : Fault)
  | globalOutOfRange (package name : String) (bank : Bank) (index available : Nat)
  | unnamedFunction (package : String)
  | instruction (unit worker : String) (position : Nat) (cause : Script.InstructionError)
  deriving DecidableEq, Repr

def LoadError.messages : LoadError → List String
  | fault cause => [cause.message]
  | globalOutOfRange package name bank index available =>
    ["global '" ++ package ++ ":" ++ name ++ "' uses " ++ bank.name ++ " slot " ++ toString index
      ++ " but only " ++ toString available ++ " are declared"]
  | unnamedFunction package => ["package '" ++ package ++ "' declares a function without a name"]
  | instruction unit worker position cause =>
    [unit ++ "(" ++ worker ++ ") op #" ++ toString position, cause.message]

abbrev Bodies := Table BodyKey (List Script.Instruction)

/-- A program that is ready to run, its bodies, and the constants that wait to be resolved. -/
structure Loaded where
  program : Program
  bodies : Bodies
  constants : List ConstantEntry
  deriving DecidableEq, Repr

def addGlobals (globalSizes : BankSizes) : Package → List GlobalEntry → Except LoadError Package
  | package, [] => .ok package
  | package, entry :: rest =>
    match entry.type.bank? with
    | none => .error (.fault (.unsupportedType entry.type.name))
    | some bank =>
      if entry.index < globalSizes.get bank then
        addGlobals globalSizes (package.addGlobal entry.name ⟨entry.index, entry.type⟩) rest
      else
        .error (.globalOutOfRange package.name entry.name bank entry.index (globalSizes.get bank))

/-- Check the instructions of a worker, counting positions from `position`. -/
def checkInstructions (footprint : Script.Footprint) (unit worker : String) (position : Nat) :
    List Script.Instruction → Except LoadError Unit
  | [] => .ok ()
  | instruction :: rest =>
    match footprint.check instruction with
    | .error cause => .error (.instruction unit worker position cause)
    | .ok () => checkInstructions footprint unit worker (position + 1) rest

def addBodies (globalSizes : BankSizes) (unit : Callable) :
    Bodies → List (Worker × WorkerEntry) → Except LoadError Bodies
  | bodies, [] => .ok bodies
  | bodies, (worker, entry) :: rest =>
    let footprint : Script.Footprint := ⟨worker.locals, unit.returns.sizes, globalSizes⟩
    match checkInstructions footprint unit.qualifiedName entry.name 0 entry.instructions with
    | .error error => .error error
    | .ok () =>
      addBodies globalSizes unit (bodies.insert (unit.bodyKey worker) entry.instructions) rest

def loadUnit (globalSizes : BankSizes) (package name : String) (kind : UnitKind) (entry : UnitEntry)
    (bodies : Bodies) : Except LoadError (Callable × Bodies) :=
  let declared := entry.workers.map fun worker => (worker.name, worker.locals)
  match Callable.build package name kind entry.params entry.returns declared with
  | .error fault => .error (.fault fault)
  | .ok unit =>
    match addBodies globalSizes unit bodies (unit.workers.zip entry.workers) with
    | .error error => .error error
    | .ok extended => .ok (unit, extended)

def loadFunctions (globalSizes : BankSizes) : Package → Bodies → List UnitEntry →
    Except LoadError (Package × Bodies)
  | package, bodies, [] => .ok (package, bodies)
  | package, bodies, entry :: rest =>
    if entry.name.isEmpty then .error (.unnamedFunction package.name)
    else
      let kind : UnitKind := if entry.isAction then .action else .function
      match loadUnit globalSizes package.name entry.name kind entry bodies with
      | .error error => .error error
      | .ok (unit, extended) => loadFunctions globalSizes (package.addFunction unit) extended rest

def loadInit (globalSizes : BankSizes) (package : Package) (bodies : Bodies) :
    Option UnitEntry → Except LoadError (Package × Bodies)
  | none => .ok (package, bodies)
  | some entry =>
    match loadUnit globalSizes package.name initUnitName .init entry bodies with
    | .error error => .error error
    | .ok (unit, extended) => .ok (package.setInit unit, extended)

def loadPackage (globalSizes : BankSizes) (entry : PackageEntry) (bodies : Bodies) :
    Except LoadError (Package × Bodies) :=
  match addGlobals globalSizes (.ofName entry.name) entry.globals with
  | .error error => .error error
  | .ok withGlobals =>
    match loadInit globalSizes withGlobals bodies entry.init with
    | .error error => .error error
    | .ok (withInit, extended) => loadFunctions globalSizes withInit extended entry.functions

def loadPackages (globalSizes : BankSizes) : Bodies → List PackageEntry →
    Except LoadError (List Package × Bodies)
  | bodies, [] => .ok ([], bodies)
  | bodies, entry :: rest =>
    match loadPackage globalSizes entry bodies with
    | .error error => .error error
    | .ok (package, extended) =>
      match loadPackages globalSizes extended rest with
      | .error error => .error error
      | .ok (packages, final) => .ok (package :: packages, final)

def checkConstants (program : Program) : List ConstantEntry → Except LoadError Unit
  | [] => .ok ()
  | entry :: rest =>
    match program.package entry.package with
    | .error fault => .error (.fault fault)
    | .ok _ => checkConstants program rest

def load (manifest : Manifest) : Except LoadError Loaded :=
  match loadPackages manifest.globals .empty manifest.packages with
  | .error error => .error error
  | .ok (packages, bodies) =>
    let program := Program.ofPackages packages manifest.globals
    match checkConstants program manifest.constants with
    | .error error => .error error
    | .ok () => .ok ⟨program, bodies, manifest.constants⟩

def Loaded.pendingCount (loaded : Loaded) (package : String) : Nat :=
  loaded.constants.countP fun constant => constant.package = package

/-- The units of a loaded program by package; an init unit comes after the functions. -/
def Loaded.units (loaded : Loaded) : List Callable :=
  loaded.program.packages.values.flatMap fun package =>
    package.functions.values ++ package.init.toList

end WorkerMachine.Manifest
