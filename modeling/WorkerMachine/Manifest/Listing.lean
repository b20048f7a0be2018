import WorkerMachine.Manifest.Loading
import WorkerMachine.Text.Blank
/-!
# Listings of loaded programs

A listing names every package, global, unit and constant.  Packages, globals and functions come in
the order of their names, and constants in the order of the manifest.
-/

namespace WorkerMachine.Manifest

def sortedEntries {Entry : Type} (table : Table String Entry) : List (String × Entry) :=
  table.entries.mergeSort fun left right => left.1 ≤ right.1

def typesText (types : List DataType) : String :=
  Text.join ", " (types.map DataType.name)

def unitText (unit : Callable) : String :=
  unit.name ++ "(" ++ typesText unit.params.types ++ ") -> (" ++ typesText unit.returns.types
    ++ ") [workers: " ++ Text.join ", " (unit.workers.map Worker.name) ++ "]"

def globalLine (name : String) (global : GlobalVariable) : String :=
  "  global " ++ name ++ ": " ++ global.type.name ++ " @" ++ toString global.index ++ "\n"

def functionLine (unit : Callable) : String :=
  let label := match unit.kind with
    | .action => "action"
    | .function | .init => "function"
  "  " ++ label ++ " " ++ unitText unit ++ "\n"

def packageLines (package : Package) : List String :=
  ["package " ++ package.name ++ "\n"]
    ++ (sortedEntries package.globals).map (fun entry => globalLine entry.1 entry.2)
    ++ (package.init.map fun unit => "  init " ++ unitText unit ++ "\n").toList
    ++ (sortedEntries package.functions).map fun entry => functionLine entry.2

def Loaded.listing (loaded : Loaded) : String :=
  String.join ((sortedEntries loaded.program.packages).flatMap fun entry => packageLines entry.2)
    ++ String.join (loaded.constants.map fun constant =>
      "constant " ++ constant.package ++ ":" ++ constant.name ++ "\n")

end WorkerMachine.Manifest
