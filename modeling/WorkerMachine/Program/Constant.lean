import WorkerMachine.Value.Written
/-!
# Constants

A constant attribute names a global of a package.  Its value is read when the package has been
initialized, and is never changed afterwards.
-/

namespace WorkerMachine

inductive Constant where
  | boolean (truth : Bool)
  | int (number : Int64)
  | float (number : Binary64)
  | text (text : String)
  deriving DecidableEq, Repr, Inhabited

namespace Constant

/-- The constant with the content of a value; blobs and references are no constants. -/
def ofValue? : Value → Option Constant
  | .boolean truth => some (boolean truth)
  | .int number => some (int number)
  | .float number => some (float number)
  | .text written => some (text written)
  | .blob _ | .reference _ => none

def toValue : Constant → Value
  | boolean truth => .boolean truth
  | int number => .int number
  | float number => .float number
  | text written => .text written

def bank (constant : Constant) : Bank :=
  constant.toValue.bank

/-- The written form of a constant; floating-point numbers are written without a power of ten. -/
def render : Constant → String
  | boolean truth => truthText truth
  | int number => toString number.toInt
  | float number => Decimal.Style.constant.render number
  | text written => written

/-- A constant is found again in its value. -/
@[simp] theorem ofValue?_toValue (constant : Constant) :
    ofValue? constant.toValue = some constant := by
  cases constant <;> rfl

end Constant

end WorkerMachine
