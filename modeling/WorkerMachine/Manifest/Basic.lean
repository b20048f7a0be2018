import WorkerMachine.Decimal.Reading
import WorkerMachine.Program.Callable
import WorkerMachine.Script.Instruction
import WorkerMachine.Toml.Basic
import WorkerMachine.Toml.Document
/-!
# Manifests

A manifest describes a program: the sizes of its global memory, its packages with their globals and
units, the instructions of each worker, and the constants to be resolved.  It is read from a TOML
tree; a tree of another shape is refused as a whole.
-/

namespace WorkerMachine.Manifest

open Toml (requiredField optionalField fieldWithDefault arrayOf closedEntries? find?)

structure GlobalEntry where
  name : String
  index : Nat
  type : DataType
  deriving DecidableEq, Repr

structure WorkerEntry where
  name : String
  locals : BankSizes
  instructions : List Script.Instruction
  deriving DecidableEq, Repr

structure UnitEntry where
  name : String
  isAction : Bool
  params : List DataType
  returns : List DataType
  workers : List WorkerEntry
  deriving DecidableEq, Repr

structure PackageEntry where
  name : String
  globals : List GlobalEntry
  init : Option UnitEntry
  functions : List UnitEntry
  deriving DecidableEq, Repr

structure ConstantEntry where
  package : String
  name : String
  deriving DecidableEq, Repr

end Manifest

structure Manifest where
  globals : BankSizes
  packages : List Manifest.PackageEntry
  constants : List Manifest.ConstantEntry
  deriving DecidableEq, Repr

namespace Manifest

open Toml (requiredField optionalField fieldWithDefault arrayOf closedEntries? find?)

/-! ## Reading the parts -/

/-- Read sizes of banks; a missing bank is empty, and other keys are ignored. -/
def readSizes (value : Toml) : Option BankSizes := do
  let entries ← value.entries?
  let size (key : String) : Option Nat := fieldWithDefault entries key 0 Toml.natural?
  return { longs := ← size "longs", doubles := ← size "doubles", strings := ← size "strings",
           ints := ← size "ints", blobs := ← size "blobs", refs := ← size "refs" }

def typeOfName? : String → Option DataType
  | "int" => some .int
  | "float" => some .float
  | "string" => some .text
  | "boolean" => some .boolean
  | "blob" => some .blob
  | "map" => some .map
  | "json" => some .json
  | "xml" => some .xml
  | "any" => some .any
  | "error" => some .error
  | "void" => some .void
  | "null" => some .null
  | _ => none

def readType : Toml → Option DataType
  | .table [("array", element)] => (readType element).map .array
  | .table [("struct", name)] => name.text?.map .record
  | value => value.alternative?.bind typeOfName?

def readBank (value : Toml) : Option Bank :=
  match value.plainAlternative? with
  | some "int" => some .int
  | some "float" => some .float
  | some "str" => some .text
  | some "bool" => some .boolean
  | some "blob" => some .blob
  | some "ref" => some .reference
  | _ => none

/-- The constant that an integer stands for: the nearest floating-point number where it is too
large for a signed integer of 64 bits. -/
def constantOfInteger (number : Int) : Constant :=
  if number < Nat.pow 2 63 then .int (Int64.ofInt number)
  else .float (Decimal.nearest false number.toNat 0)

def readLiteral : Toml → Option Constant
  | .boolean truth => some (.boolean truth)
  | .integer number => some (constantOfInteger number)
  | .float number => some (.float number)
  | .text written => some (.text written)
  | _ => none

/-- Read an instruction whose integers all fit 64 bits; keys that it does not know are ignored. -/
def readInstruction (value : Toml) : Option Script.Instruction := do
  guard value.fitsWords
  let entries ← value.entries?
  let bank : Option Bank := requiredField entries "bank" readBank
  let number (key : String) : Option Nat := requiredField entries key Toml.natural?
  let word (key : String) : Option String := requiredField entries key Toml.text?
  let numbers (key : String) : Option (List Nat) :=
    fieldWithDefault entries key [] (arrayOf Toml.natural?)
  match ← word "op" with
  | "const" => return .constant (← number "dst") (← requiredField entries "value" readLiteral)
  | "add" => return .add (← bank) (← number "dst") (← number "a") (← number "b")
  | "concat" => return .concat (← number "dst") (← number "a") (← number "b")
  | "move" => return .move (← bank) (← number "dst") (← number "src")
  | "store_ret" => return .storeReturn (← bank) (← number "src") (← number "ret")
  | "return" => return .finish
  | "raise" => return .raise (← word "message")
  | "store_global" => return .storeGlobal (← bank) (← number "src") (← number "global")
  | "load_global" => return .loadGlobal (← bank) (← number "dst") (← number "global")
  | "call" =>
    return .call (← word "package") (← word "function") (← numbers "args") (← numbers "rets")
  | "sleep" => return .sleep (← number "ms")
  | _ => none

def readGlobal (value : Toml) : Option GlobalEntry := do
  let entries ← closedEntries? ["name", "index", "type"] value
  return ⟨← requiredField entries "name" Toml.text?, ← requiredField entries "index" Toml.natural?,
    ← requiredField entries "type" readType⟩

def readWorker (value : Toml) : Option WorkerEntry := do
  let entries ← closedEntries? ["name", "locals", "ops"] value
  return ⟨← fieldWithDefault entries "name" defaultWorkerName Toml.text?,
    ← fieldWithDefault entries "locals" .zero readSizes,
    ← fieldWithDefault entries "ops" [] (arrayOf readInstruction)⟩

def readUnit (value : Toml) : Option UnitEntry := do
  let entries ← closedEntries? ["name", "action", "params", "returns", "workers"] value
  return ⟨← fieldWithDefault entries "name" "" Toml.text?,
    ← fieldWithDefault entries "action" false Toml.boolean?,
    ← fieldWithDefault entries "params" [] (arrayOf readType),
    ← fieldWithDefault entries "returns" [] (arrayOf readType),
    ← fieldWithDefault entries "workers" [] (arrayOf readWorker)⟩

def readPackage (value : Toml) : Option PackageEntry := do
  let entries ← closedEntries? ["name", "globals", "init", "functions"] value
  return ⟨← requiredField entries "name" Toml.text?,
    ← fieldWithDefault entries "globals" [] (arrayOf readGlobal),
    ← optionalField entries "init" readUnit,
    ← fieldWithDefault entries "functions" [] (arrayOf readUnit)⟩

def readConstant (value : Toml) : Option ConstantEntry := do
  let entries ← closedEntries? ["package", "name"] value
  return ⟨← requiredField entries "package" Toml.text?, ← requiredField entries "name" Toml.text?⟩

def ofToml? (value : Toml) : Option Manifest := do
  let entries ← closedEntries? ["globals", "packages", "constants"] value
  return ⟨← fieldWithDefault entries "globals" .zero readSizes,
    ← fieldWithDefault entries "packages" [] (arrayOf readPackage),
    ← fieldWithDefault entries "constants" [] (arrayOf readConstant)⟩

def ofText? (document : String) : Option Manifest :=
  (Toml.ofText? document).bind ofToml?

end Manifest

end WorkerMachine
