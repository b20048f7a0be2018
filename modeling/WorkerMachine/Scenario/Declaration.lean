import WorkerMachine.Scenario.Action
/-!
# Declared scenarios

A scenario declares a program together with the actions of its workers.  Nothing is checked beyond
the types of signatures, so a scenario can also declare what a manifest would be refused for.
-/

namespace WorkerMachine.Scenario

structure WorkerDeclaration where
  name : String
  locals : BankSizes
  body : Option (List Action)

/-- The declaration of a unit.  The body of a unit without declared workers belongs to the worker
that such a unit has by itself. -/
structure UnitDeclaration where
  name : String
  kind : UnitKind
  params : List DataType
  returns : List DataType
  workers : List WorkerDeclaration
  soleBody : Option (List Action)

structure PackageDeclaration where
  name : String
  globals : List (String × GlobalVariable)
  init : Option UnitDeclaration
  functions : List UnitDeclaration

abbrev Bodies := Table BodyKey (List Action)

def UnitDeclaration.bodies (declaration : UnitDeclaration) : List (Option (List Action)) :=
  match declaration.workers with
  | [] => [declaration.soleBody]
  | workers => workers.map WorkerDeclaration.body

def recordBodies (unit : Callable) : Bodies → List (Worker × Option (List Action)) → Bodies
  | bodies, [] => bodies
  | bodies, (worker, some body) :: rest =>
    recordBodies unit (bodies.insert (unit.bodyKey worker) body) rest
  | bodies, (_, none) :: rest => recordBodies unit bodies rest

def UnitDeclaration.build (declaration : UnitDeclaration) (package : String) (bodies : Bodies) :
    Except Fault (Callable × Bodies) :=
  let workers := declaration.workers.map fun worker => (worker.name, worker.locals)
  match Callable.build package declaration.name declaration.kind declaration.params
      declaration.returns workers with
  | .error fault => .error fault
  | .ok unit => .ok (unit, recordBodies unit bodies (unit.workers.zip declaration.bodies))

def buildFunctions : Package → Bodies → List UnitDeclaration → Except Fault (Package × Bodies)
  | package, bodies, [] => .ok (package, bodies)
  | package, bodies, declaration :: rest =>
    match declaration.build package.name bodies with
    | .error fault => .error fault
    | .ok (unit, extended) => buildFunctions (package.addFunction unit) extended rest

def PackageDeclaration.build (declaration : PackageDeclaration) (bodies : Bodies) :
    Except Fault (Package × Bodies) :=
  let package := declaration.globals.foldl
    (fun package global => package.addGlobal global.1 global.2) (.ofName declaration.name)
  match declaration.init with
  | none => buildFunctions package bodies declaration.functions
  | some unitDeclaration =>
    match unitDeclaration.build package.name bodies with
    | .error fault => .error fault
    | .ok (unit, extended) => buildFunctions (package.setInit unit) extended declaration.functions

def buildPackages : Bodies → List PackageDeclaration → Except Fault (List Package × Bodies)
  | bodies, [] => .ok ([], bodies)
  | bodies, declaration :: rest =>
    match declaration.build bodies with
    | .error fault => .error fault
    | .ok (package, extended) =>
      match buildPackages extended rest with
      | .error fault => .error fault
      | .ok (packages, final) => .ok (package :: packages, final)

def build (globalSizes : BankSizes) (packages : List PackageDeclaration) :
    Except Fault (Program × Bodies) :=
  match buildPackages .empty packages with
  | .error fault => .error fault
  | .ok (built, bodies) => .ok (.ofPackages built globalSizes, bodies)

end WorkerMachine.Scenario
