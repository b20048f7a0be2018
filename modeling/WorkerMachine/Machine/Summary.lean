import WorkerMachine.Machine.Basic
/-!
# Summaries of machines

A summary shows the scheduler of a machine, its live contexts and its counts on one line.
-/

namespace WorkerMachine

def recordText (name : String) (fields : List (String × String)) : String :=
  name ++ " \x7b "
    ++ String.intercalate ", " (fields.map fun field => field.1 ++ ": " ++ field.2) ++ " \x7d"

namespace Machine

def schedulerSummary (machine : Machine) : Policy → String
  | .rehearsed _ => "TestScheduler"
  | .threadPool multiThreaded _ _ =>
    recordText "TokioScheduler" [("multi_threaded", truthText multiThreaded),
      ("active", toString machine.active)]
  | .ownThreads threadName stackSize _ =>
    let size := match stackSize with
      | some bytes => "Some(" ++ toString bytes ++ ")"
      | none => "None"
    recordText "ThreadScheduler" [("thread_name", "\"" ++ threadName ++ "\""), ("stack_size", size),
      ("scheduled", toString machine.taken), ("active", toString machine.active)]

def talliesSummary (machine : Machine) : String :=
  recordText "VmStats" [("contexts_created", toString machine.tallies.contexts),
    ("workers_scheduled", toString machine.tallies.scheduled),
    ("workers_run_in_caller", toString machine.tallies.inCaller),
    ("responses_created", toString machine.tallies.responses),
    ("package_inits", toString machine.tallies.inits)]

def summary (machine : Machine) (policy : Policy) : String :=
  recordText "Vm" [("scheduler", machine.schedulerSummary policy),
    ("live_contexts", toString (machine.arena ownArena).size), ("stats", machine.talliesSummary)]

end Machine

def bodiesSummary {Body : Type} (bodies : Table BodyKey Body) : String :=
  recordText "NativeInterpreter" [("bodies", toString bodies.size)]

end WorkerMachine
