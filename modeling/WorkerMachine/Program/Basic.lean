import WorkerMachine.Program.Callable
import WorkerMachine.Table
/-!
# Programs

A program holds packages by name, and a package holds functions and global variables by name.  Of
two declarations with the same name the later one counts.
-/

namespace WorkerMachine

structure GlobalVariable where
  index : Nat
  type : DataType
  deriving DecidableEq, Repr, Inhabited

structure Package where
  name : String
  init : Option Callable
  functions : Table String Callable
  globals : Table String GlobalVariable
  deriving DecidableEq, Repr, Inhabited

namespace Package

/-- A package without content. -/
def ofName (name : String) : Package := ⟨name, none, .empty, .empty⟩

def addGlobal (package : Package) (name : String) (global : GlobalVariable) : Package :=
  { package with globals := package.globals.insert name global }

def setInit (package : Package) (unit : Callable) : Package :=
  { package with init := some unit }

def addFunction (package : Package) (unit : Callable) : Package :=
  { package with functions := package.functions.insert unit.name unit }

/-- The unit of a name, where the reserved name stands for the init unit. -/
def unit? (package : Package) (name : String) : Option Callable :=
  if name = initUnitName then package.init else package.functions.get? name

end Package

/-- A program: its packages and the sizes of its global memory. -/
structure Program where
  packages : Table String Package
  globalSizes : BankSizes
  deriving DecidableEq, Repr, Inhabited

namespace Program

def ofPackages (packages : List Package) (globalSizes : BankSizes) : Program :=
  ⟨.ofList (packages.map fun package => (package.name, package)), globalSizes⟩

def package (program : Program) (name : String) : Except Fault Package :=
  match program.packages.get? name with
  | some package => .ok package
  | none => .error (.packageNotFound name)

def function (package : Package) (packageName name : String) : Except Fault Callable :=
  match package.functions.get? name with
  | some unit => .ok unit
  | none => .error (.functionNotFound packageName name)

def unit (program : Program) (packageName name : String) : Except Fault (Package × Callable) :=
  match program.package packageName with
  | .error fault => .error fault
  | .ok package =>
    match package.unit? name with
    | some unit => .ok (package, unit)
    | none => .error (.functionNotFound packageName name)

end Program

structure BodyKey where
  package : String
  unit : String
  worker : Nat
  deriving DecidableEq, Repr, Inhabited

def Callable.bodyKey (unit : Callable) (worker : Worker) : BodyKey :=
  ⟨unit.package, unit.name, worker.index⟩

/-- A constant attribute: the global that it names and the cell that its value goes to. -/
structure ConstantAttribute where
  package : String
  name : String
  cell : Nat
  deriving DecidableEq, Repr, Inhabited

end WorkerMachine
