import WorkerMachine.Decimal.Style
import WorkerMachine.Text.Blank
import WorkerMachine.Text.Utf8
import WorkerMachine.Value.Basic
/-!
# Written forms of values

Values are written without quotes: a text stands as it is, a blob as the text that its bytes spell,
an array in brackets, a map in braces, and an error by its message.
-/

namespace WorkerMachine

def truthText (truth : Bool) : String :=
  if truth then "true" else "false"

mutual

def Value.render : Value → String
  | .int number => toString number.toInt
  | .float number => Decimal.Style.value.render number
  | .text text => text
  | .boolean truth => truthText truth
  | .blob bytes => Text.decodeLossy bytes
  | .reference target => target.render

def Reference.render : Reference → String
  | .nil => "nil"
  | .array items => "[" ++ Text.join ", " (renderItems items) ++ "]"
  | .map entries => "\x7b" ++ Text.join ", " (renderEntries entries) ++ "\x7d"
  | .error error => "error(" ++ error.message ++ ")"

def renderItems : List Value → List String
  | [] => []
  | item :: rest => item.render :: renderItems rest

def renderEntries : List (String × Value) → List String
  | [] => []
  | (key, value) :: rest => (key ++ ": " ++ value.render) :: renderEntries rest

end

end WorkerMachine
