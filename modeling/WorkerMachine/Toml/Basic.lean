import WorkerMachine.Decimal.Binary64
/-!
# TOML values

The tree that a TOML document denotes, and small readers for the shapes that settings take in it.
Each reader answers nothing where the value has another shape.
-/

namespace WorkerMachine

/-- A TOML value.  A table keeps the order in which its keys were written, and a moment keeps the
way in which it was written. -/
inductive Toml where
  | boolean (truth : Bool)
  | integer (number : Int)
  | float (number : Binary64)
  | text (text : String)
  | moment (written : String)
  | array (items : List Toml)
  | table (entries : List (String × Toml))
  deriving Inhabited

namespace Toml

def find? (entries : List (String × Toml)) (key : String) : Option Toml :=
  (entries.find? fun entry => entry.1 == key).map Prod.snd

/-- The entries of a table in which unknown keys are ignored.  A moment counts as such a table, none
of whose keys is known. -/
def entries? : Toml → Option (List (String × Toml))
  | table entries => some entries
  | moment _ => some []
  | _ => none

def items? : Toml → Option (List Toml)
  | array items => some items
  | _ => none

def text? : Toml → Option String
  | text written => some written
  | _ => none

def boolean? : Toml → Option Bool
  | boolean truth => some truth
  | _ => none

def natural? : Toml → Option Nat
  | integer number => if 0 ≤ number && number < Nat.pow 2 64 then some number.toNat else none
  | _ => none

mutual

/-- Whether each integer in a value fits 64 bits, without a sign or with one. -/
def fitsWords : Toml → Bool
  | integer number => -(Nat.pow 2 63 : Int) ≤ number && number < Nat.pow 2 64
  | array items => allFitWords items
  | table entries => entriesFitWords entries
  | boolean _ | float _ | text _ | moment _ => true

def allFitWords : List Toml → Bool
  | [] => true
  | item :: rest => item.fitsWords && allFitWords rest

def entriesFitWords : List (String × Toml) → Bool
  | [] => true
  | (_, value) :: rest => value.fitsWords && entriesFitWords rest

end

/-- The name of an alternative without content: a text, or a table whose only key has an empty
table. -/
def plainAlternative? : Toml → Option String
  | text name => some name
  | table [(name, table [])] => some name
  | _ => none

/-- The name of an alternative without content, where the content may also be an empty array. -/
def alternative? : Toml → Option String
  | table [(name, array [])] => some name
  | value => value.plainAlternative?

def optionalField {Field : Type} (entries : List (String × Toml)) (key : String)
    (read : Toml → Option Field) : Option (Option Field) :=
  match find? entries key with
  | none => some none
  | some value => (read value).map some

def fieldWithDefault {Field : Type} (entries : List (String × Toml)) (key : String)
    (default : Field) (read : Toml → Option Field) : Option Field :=
  match find? entries key with
  | none => some default
  | some value => read value

def requiredField {Field : Type} (entries : List (String × Toml)) (key : String)
    (read : Toml → Option Field) : Option Field :=
  (find? entries key).bind read

def arrayOf {Item : Type} (read : Toml → Option Item) (value : Toml) : Option (List Item) :=
  value.items?.bind fun items => items.mapM read

def closedEntries? (known : List String) : Toml → Option (List (String × Toml))
  | table entries => if entries.all fun entry => known.contains entry.1 then some entries else none
  | _ => none

end Toml

end WorkerMachine
