import WorkerMachine.CommandLine.Execution
import WorkerMachine.Toml.Document
/-!
# The program

The outer layer reads the files and the variables that a request names, and prints the report.
-/

namespace WorkerMachine.CommandLine

def reasonOf : IO.Error → String
  | .noFileOrDirectory _ code details | .permissionDenied (some _) code details
  | .inappropriateType (some _) code details | .resourceExhausted (some _) code details =>
    details ++ " (os error " ++ toString code ++ ")"
  | .permissionDenied none code details | .inappropriateType none code details
  | .otherError code details => details ++ " (os error " ++ toString code ++ ")"
  | other => toString other

def readDocument (path : String) : IO (Except DocumentError Toml) := do
  try
    match String.fromUTF8? (← IO.FS.readBinFile path) with
    | none => return .error (.unreadable "stream did not contain valid UTF-8")
    | some written =>
      match Toml.ofText? written with
      | none => return .error .malformed
      | some root => return .ok root
  catch error => return .error (.unreadable (reasonOf error))

def Command.manifest : Command → String
  | run manifest _ _ _ _ => manifest
  | inspect manifest => manifest

def readDocuments (request : Request) : IO Documents := do
  let paths := request.command.manifest :: request.configuration.toList
  let read ← paths.mapM fun path => return (path, ← readDocument path)
  return fun path => (read.lookup path).getD (.error .malformed)

def readEnvironment : IO Environment := do
  let names := [Configuration.SchedulerSettings.kindVariable,
    Configuration.SchedulerSettings.workerThreadsVariable]
  let read ← names.mapM fun name => return (name, ← IO.getEnv name)
  return fun name => (read.lookup name).join

end WorkerMachine.CommandLine

open WorkerMachine.CommandLine in
def main (words : List String) : IO UInt32 := do
  match Request.ofWords words with
  | .error .helpWanted =>
    IO.print UsageError.helpWanted.message
    return 0
  | .error error =>
    IO.eprintln ("error: " ++ error.message)
    return 2
  | .ok request =>
    let report := request.carryOut (← readDocuments request) (← readEnvironment)
    IO.print report.output
    IO.eprint report.complaint
    return UInt32.ofNat report.code
