import WorkerMachine.CommandLine.SafePath
/-!
# Requests on the command line

The words of a command line are read as a request: to run a function of a manifest, or to list what
a manifest holds.  Options stand in front of the operands; from the first argument of the function
on, every word is an argument, whatever it begins with.
-/

namespace WorkerMachine.CommandLine

inductive Command where
  | run (manifest package function : String) (arguments : List String) (showsConstants : Bool)
  | inspect (manifest : String)
  deriving DecidableEq, Repr

structure Request where
  configuration : Option String
  command : Command
  deriving DecidableEq, Repr

/-- Why a command line is refused, or left aside because help is asked for. -/
inductive UsageError where
  | helpWanted
  | missingCommand
  | unknownCommand (word : String)
  | unexpected (word : String)
  | repeated (option : String)
  | missingValue (option : String)
  | superfluousValue (option : String)
  | missingOperand (name : String)
  | refusedPath (reason : String)
  deriving DecidableEq, Repr

def UsageError.message : UsageError → String
  | helpWanted => "run [--constants] [--config FILE] MANIFEST PACKAGE FUNCTION [ARGS]...\n"
      ++ "inspect [--config FILE] MANIFEST\n"
  | missingCommand => "a command is required"
  | unknownCommand word => "unrecognized command '" ++ word ++ "'"
  | unexpected word => "unexpected argument '" ++ word ++ "'"
  | repeated option => "'--" ++ option ++ "' cannot be used multiple times"
  | missingValue option => "a value is required for '--" ++ option ++ "'"
  | superfluousValue option => "'--" ++ option ++ "' takes no value"
  | missingOperand name => "the argument <" ++ name ++ "> was not provided"
  | refusedPath reason => reason

/-! ## Words -/

inductive Word where
  /-- The word after which nothing is an option. -/
  | separator
  /-- A known option with the value that is attached to it. -/
  | option (name : String) (attached : Option String)
  /-- A word that begins like an option but is none. -/
  | dashed
  | plain
  deriving DecidableEq, Repr

/-- The name of a long option and the value that is attached to it after the first equals sign. -/
def splitOption (written : List Char) : String × Option String :=
  let name := String.ofList (written.takeWhile (· ≠ '='))
  match written.dropWhile (· ≠ '=') with
  | [] => (name, none)
  | _ :: value => (name, some (String.ofList value))

def classify (known : List String) (word : String) : Word :=
  match word.toList with
  | ['-', '-'] => .separator
  | '-' :: '-' :: written =>
    let (name, attached) := splitOption written
    if known.contains name then .option name attached else .dashed
  | '-' :: _ :: _ => .dashed
  | _ => .plain

def configurationOption : String := "config"

def constantsOption : String := "constants"

def helpOption : String := "help"

/-- Asking for help, which takes no value. -/
def refuseHelp (attached : Option String) : UsageError :=
  if attached.isSome then .superfluousValue helpOption else .helpWanted

/-! ## Reading -/

structure Shape where
  options : List String
  /-- The names of the operands that are required. -/
  operands : List String
  /-- Whether arguments may follow the operands. -/
  takesArguments : Bool

structure Scan where
  configuration : Option String := none
  showsConstants : Bool := false
  operands : List String := []

/-- Whether a word can be the value of an option or an operand.  Where the next operand would be an
argument, also a word that begins like an option can. -/
def Shape.admitsWord (shape : Shape) (scan : Scan) (word : String) : Bool :=
  match classify shape.options word with
  | .plain => true
  | .dashed => shape.takesArguments && shape.operands.length ≤ scan.operands.length
  | .separator | .option _ _ => false

def takeConfiguration (earlier : Option String) (path : String) :
    Except UsageError (Option String) :=
  match earlier, checkPath path with
  | some _, _ => .error (.repeated configurationOption)
  | none, .error reason => .error (.refusedPath reason)
  | none, .ok accepted => .ok (some accepted)

def Shape.scan (shape : Shape) : Scan → List String → Except UsageError Scan
  | scan, [] => .ok scan
  | scan, word :: rest =>
    if shape.operands.length < scan.operands.length then
      .ok { scan with operands := scan.operands ++ word :: rest }
    else match classify shape.options word with
      | .separator => .ok { scan with operands := scan.operands ++ rest }
      | .option name attached =>
        if name = configurationOption then
          match attached, rest with
          | some path, rest =>
            match takeConfiguration scan.configuration path with
            | .error error => .error error
            | .ok configuration => shape.scan { scan with configuration := configuration } rest
          | none, path :: later =>
            if shape.admitsWord scan path then
              match takeConfiguration scan.configuration path with
              | .error error => .error error
              | .ok configuration => shape.scan { scan with configuration := configuration } later
            else .error (.missingValue name)
          | none, [] => .error (.missingValue name)
        else if name = helpOption then .error (refuseHelp attached)
        else if attached.isSome then .error (.superfluousValue name)
        else if scan.showsConstants then .error (.repeated name)
        else shape.scan { scan with showsConstants := true } rest
      | .dashed | .plain =>
        if shape.admitsWord scan word then
          shape.scan { scan with operands := scan.operands ++ [word] } rest
        else .error (.unexpected word)

/-- Check that the required operands are there and nothing beyond what the command takes. -/
def Shape.checkOperands (shape : Shape) (scan : Scan) : Except UsageError Unit :=
  match shape.operands.drop scan.operands.length, scan.operands.drop shape.operands.length with
  | name :: _, _ => .error (.missingOperand name)
  | [], word :: _ => if shape.takesArguments then .ok () else .error (.unexpected word)
  | [], [] => .ok ()

def Shape.read (shape : Shape) (words : List String) : Except UsageError Scan :=
  match shape.scan {} words with
  | .error error => .error error
  | .ok scan =>
    match shape.checkOperands scan with
    | .error error => .error error
    | .ok () => .ok scan

def runShape : Shape where
  options := [configurationOption, constantsOption, helpOption]
  operands := ["MANIFEST", "PACKAGE", "FUNCTION"]
  takesArguments := true

def inspectShape : Shape where
  options := [configurationOption, helpOption]
  operands := ["MANIFEST"]
  takesArguments := false

/-- The command of what was read.  The path of the manifest must be one that may be read. -/
def Scan.command (scan : Scan) (ofManifest : String → List String → Except UsageError Command) :
    Except UsageError Command :=
  match scan.operands with
  | [] => .error (.missingOperand "MANIFEST")
  | manifest :: rest =>
    match checkPath manifest with
    | .error reason => .error (.refusedPath reason)
    | .ok accepted => ofManifest accepted rest

/-- Read the words after the name of a command.  A configuration that is named there counts more
than one that was named in front of the command. -/
def readCommand (configuration : Option String) (name : String) (words : List String) :
    Except UsageError Request :=
  let request (scan : Scan) (command : Except UsageError Command) : Except UsageError Request :=
    command.map fun command => ⟨scan.configuration.or configuration, command⟩
  if name = "run" then
    match runShape.read words with
    | .error error => .error error
    | .ok scan =>
      request scan (scan.command fun manifest rest =>
        match rest with
        | package :: function :: arguments =>
          .ok (.run manifest package function arguments scan.showsConstants)
        | [_] => .error (.missingOperand "FUNCTION")
        | [] => .error (.missingOperand "PACKAGE"))
  else if name = "inspect" then
    match inspectShape.read words with
    | .error error => .error error
    | .ok scan => request scan (scan.command fun manifest _ => .ok (.inspect manifest))
  else .error (.unknownCommand name)

def classifyLeading (word : String) : Word :=
  classify [configurationOption, helpOption] word

def readWords (configuration : Option String) : List String → Except UsageError Request
  | [] => .error .missingCommand
  | word :: rest =>
    match classifyLeading word, rest with
    | .plain, words => readCommand configuration word words
    | .option name attached, words =>
      if name = helpOption then .error (refuseHelp attached)
      else match attached, words with
        | some path, words =>
          match takeConfiguration configuration path with
          | .error error => .error error
          | .ok taken => readWords taken words
        | none, path :: words =>
          match classifyLeading path, takeConfiguration configuration path with
          | .plain, .ok taken => readWords taken words
          | .plain, .error error => .error error
          | _, _ => .error (.missingValue name)
        | none, [] => .error (.missingValue name)
    | .separator, _ | .dashed, _ => .error (.unexpected word)

def Request.ofWords (words : List String) : Except UsageError Request :=
  readWords none words

end WorkerMachine.CommandLine
