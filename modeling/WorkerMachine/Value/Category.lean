/-!
# Declared types and register banks

Every value lives in one of six register banks.  A declared type selects the bank of its values;
all composite types share the bank of references, and the two types without values select none.
-/

namespace WorkerMachine

/-- The six register banks.  Booleans live in a bank of 32-bit integers. -/
inductive Bank where
  | int
  | float
  | text
  | boolean
  | blob
  | reference
  deriving DecidableEq, Repr, Inhabited

namespace Bank

/-- Every bank, in the fixed order in which banks are listed. -/
def all : List Bank := [int, float, text, boolean, blob, reference]

def name : Bank → String
  | int => "int"
  | float => "float"
  | text => "string"
  | boolean => "boolean"
  | blob => "blob"
  | reference => "ref"

/-- The list of banks misses none. -/
theorem mem_all (bank : Bank) : bank ∈ all := by
  cases bank <;> decide

theorem name_injective {left right : Bank} (sameName : left.name = right.name) : left = right := by
  cases left <;> cases right <;> simp_all [name]

end Bank

/-- The declared type of a parameter, a return value or a global variable. -/
inductive DataType where
  | int
  | float
  | text
  | boolean
  | blob
  | map
  | json
  | xml
  | any
  | error
  | array (element : DataType)
  | record (name : String)
  | void
  | null
  deriving DecidableEq, Repr, Inhabited

namespace DataType

/-- The written form of a type: arrays put brackets behind their element type, and a record type is
written by its name. -/
def name : DataType → String
  | int => "int"
  | float => "float"
  | text => "string"
  | boolean => "boolean"
  | blob => "blob"
  | map => "map"
  | json => "json"
  | xml => "xml"
  | any => "any"
  | error => "error"
  | array element => element.name ++ "[]"
  | record name => name
  | void => "void"
  | null => "null"

/-- The bank that holds the values of a type; `void` and `null` have no values and no bank. -/
def bank? : DataType → Option Bank
  | int => some .int
  | float => some .float
  | text => some .text
  | boolean => some .boolean
  | blob => some .blob
  | map | json | xml | any | error | array _ | record _ => some .reference
  | void | null => none

def isConstantType : DataType → Bool
  | int | float | text | boolean => true
  | _ => false

theorem bank?_eq_none_iff (type : DataType) : type.bank? = none ↔ type = void ∨ type = null := by
  cases type <;> simp [bank?]

end DataType

end WorkerMachine
