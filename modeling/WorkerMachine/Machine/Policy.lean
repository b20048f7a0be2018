import WorkerMachine.Context.State
import WorkerMachine.Fault
/-!
# Scheduling policies

A policy says what becomes of a task that is handed to the scheduler.  Rehearsing policies do
everything on the thread of the caller, in an order that is known beforehand, and write it into the
journal; the other policies run each task on a thread.  Threads that are started for one task each
are not limited in number.  A pool has only so many threads: tasks that find all of them occupied
wait, and the one that has waited longest goes first.

The system takes the name of a thread as a text that ends at its first zero character.  A thread
whose name holds a zero character is therefore not started: the attempt panics, and the panic tells
the bytes of the name and the place of the first zero among them.
-/

namespace WorkerMachine

namespace ThreadName

def zeroCharacter : Char := '\x00'

/-- The number of bytes in front of the first zero character. -/
def zeroPlace (name : String) : Nat :=
  (String.ofList (name.toList.takeWhile (· ≠ zeroCharacter))).utf8ByteSize

/-- The panic of an attempt to start a thread under a name, if the name is refused. -/
def refusal? (name : String) : Option PanicPayload :=
  if zeroCharacter ∈ name.toList then
    let bytes := ", ".intercalate (name.toUTF8.toList.map toString)
    some (.text ("thread name may not contain interior null bytes: NulError("
      ++ toString (zeroPlace name) ++ ", [" ++ bytes ++ "])"))
  else none

/-- A name is refused exactly if it holds a zero character. -/
theorem refusal?_eq_none_iff (name : String) :
    refusal? name = none ↔ zeroCharacter ∉ name.toList := by
  by_cases holdsZero : zeroCharacter ∈ name.toList <;> simp [refusal?, holdsZero]

end ThreadName

/-- What a rehearsing scheduler does with a task. -/
inductive Rehearsal where
  /-- Run it at once. -/
  | inline
  /-- Queue it; the task queued first runs first. -/
  | fifo
  /-- Queue it; the task queued last runs first. -/
  | lifo
  /-- Drop it and report success. -/
  | drop
  /-- Drop it and report failure. -/
  | reject
  deriving DecidableEq, Repr, Inhabited

/-- What becomes of scheduled tasks. -/
inductive Policy where
  /-- Everything happens on the thread of the caller. -/
  | rehearsed (order : Rehearsal)
  /-- Every task gets a thread of its own, unless threads cannot be spawned for a reason. -/
  | ownThreads (threadName : String) (stackSize : Option Nat) (spawnFailure : Option String)
  /-- Tasks run on the threads of a pool, of which there are at most `size`. -/
  | threadPool (multiThreaded : Bool) (threadName : String) (size : Nat)
  deriving DecidableEq, Repr, Inhabited

namespace Policy

def flavor : Policy → String
  | rehearsed _ => "test"
  | ownThreads _ _ _ => "threads"
  | threadPool true _ _ => "multi_thread"
  | threadPool false _ _ => "current_thread"

def isThreaded : Policy → Bool
  | rehearsed _ => false
  | ownThreads _ _ _ | threadPool _ _ _ => true

def usualPoolSize : Nat := 512

def usualThreadName : String := "bvm-worker"

/-- The panic of an attempt to start the thread for a task, if threads of that name are refused.
Threads of a pool share one name, and a thread that is started for one task also carries the name of
the task's context. -/
def threadRefusal? (context : ContextId) : Policy → Option PanicPayload
  | rehearsed _ => none
  | ownThreads threadName _ _ => ThreadName.refusal? (threadName ++ "-" ++ toString context)
  | threadPool _ threadName _ => ThreadName.refusal? threadName

/-- Divide tasks that wait for threads, while other tasks occupy `occupied` threads, into those that
get a thread and those that go on waiting. -/
def allot {Task : Type} (occupied : Nat) (waiting : List Task) : Policy → List Task × List Task
  | rehearsed _ | ownThreads _ _ _ => (waiting, [])
  | threadPool _ _ size => waiting.splitAt (size - occupied)

/-- No task is lost or passed by another one. -/
theorem allot_append {Task : Type} (occupied : Nat) (waiting : List Task) (policy : Policy) :
    (policy.allot occupied waiting).1 ++ (policy.allot occupied waiting).2 = waiting := by
  cases policy <;> simp [allot, List.splitAt_eq]

/-- A pool never has more threads at work than its size. -/
theorem length_allot_threadPool {Task : Type} {occupied size : Nat} (waiting : List Task)
    (multiThreaded : Bool) (threadName : String) (withinSize : occupied ≤ size) :
    occupied + ((threadPool multiThreaded threadName size).allot occupied waiting).1.length
      ≤ size := by
  simp only [allot, List.splitAt_eq, List.length_take]
  omega

end Policy

end WorkerMachine
