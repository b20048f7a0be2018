import WorkerMachine.Decimal.Reading
import WorkerMachine.Value.Basic
/-!
# Arguments from the command line

The text of an argument is read as a value of the declared type of its parameter.
-/

namespace WorkerMachine.CommandLine

inductive ArgumentError where
  | integer (written : String) (cause : Decimal.IntegerError)
  | float (written : String) (cause : Decimal.FloatError)
  | boolean (written : String)
  | unsupported (type : DataType)
  deriving DecidableEq, Repr

def ArgumentError.messages : ArgumentError → List String
  | integer written cause => ["'" ++ written ++ "' is not an int", cause.message]
  | float written cause => ["'" ++ written ++ "' is not a float", cause.message]
  | boolean written =>
    ["'" ++ written ++ "' is not a boolean", "provided string was not `true` or `false`"]
  | unsupported type =>
    ["parameters of type '" ++ type.name ++ "' cannot be passed from the command line"]

def readArgument (type : DataType) (written : String) : Except ArgumentError Value :=
  match type with
  | .int =>
    match Decimal.readInteger written with
    | .ok number => .ok (.int number)
    | .error cause => .error (.integer written cause)
  | .float =>
    match Decimal.readFloat written with
    | .ok number => .ok (.float number)
    | .error cause => .error (.float written cause)
  | .boolean =>
    if written = "true" then .ok (.boolean true)
    else if written = "false" then .ok (.boolean false)
    else .error (.boolean written)
  | .text => .ok (.text written)
  | .blob => .ok (.blob written.toUTF8.toList)
  | other => .error (.unsupported other)

theorem bank_of_readArgument {type : DataType} {written : String} {value : Value}
    (accepted : readArgument type written = .ok value) : type.bank? = some value.bank := by
  cases type <;> simp only [readArgument] at accepted <;> (try split at accepted) <;>
    (try split at accepted) <;> simp_all [DataType.bank?, Value.bank] <;>
    subst accepted <;> rfl

end WorkerMachine.CommandLine
