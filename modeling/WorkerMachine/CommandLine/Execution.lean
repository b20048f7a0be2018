import WorkerMachine.CommandLine.Argument
import WorkerMachine.CommandLine.Request
import WorkerMachine.Configuration
import WorkerMachine.Host.Calls
import WorkerMachine.Host.Globals
import WorkerMachine.Manifest.Listing
import WorkerMachine.Script.Interpreter
/-!
# Carrying out requests

A request is carried out on the documents and the environment that it is given.  What comes out is a
report: an exit code, the output, and the complaint.
-/

namespace WorkerMachine.CommandLine

inductive DocumentError where
  | unreadable (reason : String)
  | malformed
  deriving DecidableEq, Repr

/-- The documents that can be named, by their paths. -/
abbrev Documents := String → Except DocumentError Toml

abbrev Environment := String → Option String

structure Report where
  code : Nat
  output : String
  complaint : String
  deriving DecidableEq, Repr

def errorCode : Nat := 1

def fatalCode : Nat := 2

/-- The exit code after a panic on the path of the host. -/
def panicCode : Nat := 101

def malformedMessage : String := "TOML parse error"

inductive Failure where
  | fault (fault : Fault)
  | manifest (path : String) (cause : DocumentError)
  | load (cause : Manifest.LoadError)
  | argument (cause : ArgumentError)
  | panic (payload : PanicPayload)
  | exhausted

namespace Failure

def messages : Failure → List String
  | fault cause => [cause.message]
  | manifest path (.unreadable reason) => ["Failed to read manifest '" ++ path ++ "'", reason]
  | manifest path .malformed => ["Invalid manifest '" ++ path ++ "'", malformedMessage]
  | load cause => cause.messages
  | argument cause => cause.messages
  | panic payload => [payload.message]
  | exhausted => ["the call nests too deep"]

def ofInterruption : Interruption → Failure
  | .fault cause => fault cause
  | .panic payload => panic payload
  | .exhausted => exhausted

/-- The report of a failure on one line; a fatal fault stands by itself, and a panic is told by its
code alone. -/
def report (failure : Failure) : Report :=
  match failure with
  | fault cause =>
    if cause.isFatal then ⟨fatalCode, "", cause.message ++ "\n"⟩
    else ⟨errorCode, "", "Error: " ++ cause.message ++ "\n"⟩
  | panic _ => ⟨panicCode, "", ""⟩
  | other => ⟨errorCode, "", "Error: " ++ Text.join ": " other.messages ++ "\n"⟩

/-- The report of a failure in several lines: the outermost message, and below it the causes. -/
def reportInLines (failure : Failure) : Report :=
  let causes := match failure.messages.tail with
    | [] => ""
    | inner => "\n\nCaused by:" ++ String.join (inner.map fun message => "\n    " ++ message)
  ⟨errorCode, "", "Error: " ++ failure.messages.headD "" ++ causes ++ "\n"⟩

end Failure

/-! ## What a request needs -/

/-- The settings of the scheduler: those of the file, or else the usual ones, overridden by the
environment. -/
def loadSettings (documents : Documents) (environment : Environment) (path : Option String) :
    Except Fault Configuration.SchedulerSettings :=
  let read : Except Fault Configuration.SchedulerSettings := match path with
    | none => .ok {}
    | some path =>
      match documents path with
      | .error (.unreadable reason) =>
        .error (.configuration ("Failed to read '" ++ path ++ "': " ++ reason))
      | .error .malformed => .error (.configuration malformedMessage)
      | .ok root =>
        match Configuration.SchedulerSettings.ofRoot? root with
        | none => .error (.configuration malformedMessage)
        | some settings => .ok settings
  match read with
  | .error fault => .error fault
  | .ok settings =>
    match settings.applyOverrides environment with
    | (_, .error fault) => .error fault
    | (overridden, .ok ()) => .ok overridden

def loadManifest (documents : Documents) (path : String) : Except Failure Manifest.Loaded :=
  match documents path with
  | .error cause => .error (.manifest path cause)
  | .ok root =>
    match Manifest.ofToml? root with
    | none => .error (.manifest path .malformed)
    | some manifest =>
      match manifest.load with
      | .error cause => .error (.load cause)
      | .ok loaded => .ok loaded

/-- Read arguments one after the other as values of the types of their parameters. -/
def readAll : List DataType → List String → Except ArgumentError (List Value)
  | type :: types, written :: rest =>
    match readArgument type written with
    | .error error => .error error
    | .ok value => (readAll types rest).map (value :: ·)
  | _, _ => .ok []

/-- Read the arguments of a call.  Where the function is unknown or their number is wrong, they are
taken as texts, and the call itself will say what is wrong. -/
def readArguments (program : Program) (package function : String) (written : List String) :
    Except ArgumentError (List Value) :=
  let texts : Except ArgumentError (List Value) := .ok (written.map .text)
  match program.packages.get? package with
  | none => texts
  | some found =>
    match found.functions.get? function with
    | none => texts
    | some unit =>
      if unit.params.length = written.length then readAll unit.params.types written else texts

/-! ## Running -/

def constantLine (constant : ConstantAttribute) (value : Option Constant) : String :=
  let written := match value with
    | some value => value.render
    | none => "<unresolved>"
  constant.package ++ ":" ++ constant.name ++ " = " ++ written ++ "\n"

def callAndWrite (package function : String) (arguments : List Value) (showsConstants : Bool) :
    HostStep String := do
  let results ← Host.callNamed none package function arguments
  let resultLines := String.join (results.map fun value => value.render ++ "\n")
  if showsConstants then
    let constants ← Host.constants
    return resultLines ++ String.join (constants.map fun (constant, value) =>
      constantLine constant value)
  else return resultLines

def runLoaded (settings : Configuration.SchedulerSettings) (loaded : Manifest.Loaded)
    (package function : String) (arguments : List Value) (showsConstants : Bool) :
    Except Failure String :=
  match settings.build with
  | .error interruption => .error (.ofInterruption interruption)
  | .ok policy =>
    let constants := loaded.constants.map fun constant => (constant.package, constant.name)
    let setup : Setup := ⟨loaded.program, policy, .full⟩
    match Session.start setup (Script.interpreter loaded.bodies) .empty constants with
    | .error fault => .error (.fault fault)
    | .ok session =>
      match Host.run (callAndWrite package function arguments showsConstants) session with
      | (.ok output, _) => .ok output
      | (.error (.interrupted interruption), _) => .error (.ofInterruption interruption)
      | (.error _, _) => .error .exhausted

/-- Run a function of a manifest.  The manifest is loaded and the arguments are read before the
scheduler is built and anything runs. -/
def run (documents : Documents) (settings : Configuration.SchedulerSettings)
    (manifest package function : String) (written : List String) (showsConstants : Bool) :
    Except Failure String :=
  match loadManifest documents manifest with
  | .error failure => .error failure
  | .ok loaded =>
    match readArguments loaded.program package function written with
    | .error cause => .error (.argument cause)
    | .ok arguments => runLoaded settings loaded package function arguments showsConstants

def Request.carryOut (request : Request) (documents : Documents) (environment : Environment) :
    Report :=
  match loadSettings documents environment request.configuration with
  | .error fault => (Failure.fault fault).reportInLines
  | .ok settings =>
    match request.command with
    | .inspect manifest =>
      match loadManifest documents manifest with
      | .error failure => failure.reportInLines
      | .ok loaded => ⟨0, loaded.listing, ""⟩
    | .run manifest package function arguments showsConstants =>
      match run documents settings manifest package function arguments showsConstants with
      | .error failure => failure.report
      | .ok output => ⟨0, output, ""⟩

end WorkerMachine.CommandLine
