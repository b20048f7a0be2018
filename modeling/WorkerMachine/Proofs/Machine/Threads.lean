import WorkerMachine.Proofs.Machine.Surroundings
/-!
# The threads of a machine

A machine is worked by a crowd: threads of the host, which run whatever the host asks for, and
threads that are started for tasks.  A started thread has no answer to give.
-/

namespace WorkerMachine

/-- A thread is started for one of the tasks that wait for a thread, in any order. -/
inductive Setup.Starts (setup : Setup) (interpreter : Interpreter) (depth : Nat) {Answer : Type} :
    Arrivals ThreadId Machine (Option Answer)
  | start {machine : Machine} {thread : ThreadId} {front rest : List Task} {task : Task}
      (nextThread : ThreadId) :
      machine.spawned = front ++ task :: rest →
      Starts setup interpreter depth machine thread
        ((setup.threadOf interpreter depth thread task).bind fun _ => .done none)
        { machine with spawned := front ++ rest, nextThread := nextThread }

@[simp]
theorem Setup.thread_station (setup : Setup) (interpreter : Interpreter) (thread : ThreadId)
    (depth : Nat) : (setup.station interpreter thread depth).thread = thread := by
  cases depth with
  | zero =>
      rfl
  | succ depth =>
      rfl

variable {Thread Token Answer : Type} [DecidableEq Thread]
  {discipline : Discipline Thread Machine Token} {thread : Thread} {token : Token}

theorem Setup.threadOf_stays {setup : Setup} {interpreter : Interpreter} {depth : Nat}
    {number : ThreadId} (tolerance : discipline.ToleratesMild thread token)
    (tasks : (setup.station interpreter number depth).TasksStay discipline thread token)
    (task : Task) :
    ((setup.threadOf interpreter depth number task).bind fun _ =>
        (.done none : Work (Option Answer))).Stays discipline thread token fun _ => True := by
  have started : (setup.threadOf interpreter depth number task).Stays discipline thread token
      fun _ => True :=
    (tasks task).run.bind fun _ _ =>
      Process.tolerated_modify tolerance fun _ => Machine.mild_of_same rfl rfl rfl rfl rfl rfl
  exact started.bind fun _ _ => Process.stays_done trivial

end WorkerMachine
