import WorkerMachine.Fault
import WorkerMachine.Table
/-!
# The gate in front of packages

Before a function of a package runs, the package is initialized once.  The gate keeps three maps:
the marks of the inits that are under way, a cell for the outcome of each init, and the package that
each thread waits for.  A call passes the gate in phases, each of which is one atomic operation on
the maps, so that the calls of several threads may interleave between any two phases.

A call from inside a package's own init passes at once.  A call that would wait for itself, directly
or around a ring of threads each of which waits for the next, is refused instead of blocking.
-/

namespace WorkerMachine

abbrev ThreadId := Nat

/-- The context and the thread that run the init of a package. -/
structure InitMark where
  context : ContextId
  thread : ThreadId
  deriving DecidableEq, Repr, Inhabited

/-- The cell for the outcome of an init. -/
inductive InitCell where
  /-- Nobody has begun the init. -/
  | untouched
  /-- This thread runs the init.  Nothing that passes the gate looks at who it is. -/
  | running (thread : ThreadId)
  /-- The init has ended with this outcome, for good. -/
  | settled (outcome : Except Fault Unit)
  deriving Inhabited

/-- The maps of the gate. -/
structure Gate where
  marks : Table String InitMark := .empty
  cells : Table String InitCell := .empty
  waits : Table ThreadId String := .empty
  deriving Inhabited

inductive GateAnswer where
  /-- The call goes on, or fails, with this outcome. -/
  | outcome (outcome : Except Fault Unit)
  /-- The call has to run the init itself. -/
  | claimed

/-- The phases of a call at the gate. -/
inductive GatePhase where
  /-- Look for the mark of the package. -/
  | lookForMark
  /-- A mark was found: pass if the caller descends from its context. -/
  | judgeMark (mark : InitMark)
  /-- Make sure that the package has a cell. -/
  | openCell
  /-- Look for an outcome in the cell. -/
  | lookForOutcome
  /-- Announce the wait for the package. -/
  | announceWait
  /-- Count the waits, which bounds the walk along them. -/
  | countWaits
  /-- Look for the thread that initializes a package on the walk. -/
  | findHolder (package : String) (turns : Nat)
  /-- Look for the package that this thread waits for. -/
  | findWait (holder : ThreadId) (turns : Nat)
  /-- The walk has come back: withdraw the wait and refuse the call. -/
  | refuse
  /-- Take over the cell, or wait until its init has ended. -/
  | enterCell
  /-- The cell is taken over: withdraw the wait before the init runs. -/
  | beginInit
  /-- Somebody else has ended the init: withdraw the wait and take over the outcome. -/
  | leave (outcome : Except Fault Unit)
  /-- The gate has answered. -/
  | answered (answer : GateAnswer)

namespace Gate

/-- The outcome of a package's init, if it has ended. -/
def outcome? (gate : Gate) (package : String) : Option (Except Fault Unit) :=
  match gate.cells.get? package with
  | some (.settled outcome) => some outcome
  | _ => none

def isInitialized (gate : Gate) (package : String) : Bool :=
  match gate.outcome? package with
  | some (.ok ()) => true
  | _ => false

def isRunning (gate : Gate) (package : String) : Bool :=
  match gate.cells.get? package with
  | some (.running _) => true
  | _ => false

def withdraw (gate : Gate) (thread : ThreadId) : Gate :=
  { gate with waits := gate.waits.erase thread }

def setCell (gate : Gate) (package : String) (cell : InitCell) : Gate :=
  { gate with cells := gate.cells.insert package cell }

def mark (gate : Gate) (package : String) (mark : InitMark) : Gate :=
  { gate with marks := gate.marks.insert package mark }

def unmark (gate : Gate) (package : String) : Gate :=
  { gate with marks := gate.marks.erase package }

/-- Whether a call at a phase need not wait: only a cell whose init is running holds a call up. -/
def ready (gate : Gate) (package : String) : GatePhase → Bool
  | .enterCell => !gate.isRunning package
  | _ => true

/-- The operation of one phase of a call of `thread` on `package`, and the phase that follows.
`descends` tells whether the caller descends from a context. -/
def advance (thread : ThreadId) (package : String) (descends : ContextId → Bool) (gate : Gate) :
    GatePhase → GatePhase × Gate
  | .lookForMark =>
    match gate.marks.get? package with
    | some mark => (.judgeMark mark, gate)
    | none => (.openCell, gate)
  | .judgeMark mark =>
    if descends mark.context then (.answered (.outcome (.ok ())), gate)
    else if mark.thread = thread then
      (.answered (.outcome (.error (.initCycle package))), gate)
    else (.openCell, gate)
  | .openCell =>
    if gate.cells.contains package then (.lookForOutcome, gate)
    else (.lookForOutcome, gate.setCell package .untouched)
  | .lookForOutcome =>
    match gate.outcome? package with
    | some outcome => (.answered (.outcome outcome), gate)
    | none => (.announceWait, gate)
  | .announceWait => (.countWaits, { gate with waits := gate.waits.insert thread package })
  | .countWaits => (.findHolder package (gate.waits.size + 1), gate)
  | .findHolder _ 0 => (.enterCell, gate)
  | .findHolder package (turns + 1) =>
    match gate.marks.get? package with
    | none => (.enterCell, gate)
    | some mark =>
      if mark.thread = thread then (.refuse, gate) else (.findWait mark.thread turns, gate)
  | .findWait holder turns =>
    match gate.waits.get? holder with
    | none => (.enterCell, gate)
    | some next => (.findHolder next turns, gate)
  | .refuse => (.answered (.outcome (.error (.initCycle package))), gate.withdraw thread)
  | .enterCell =>
    match gate.outcome? package with
    | some outcome => (.leave outcome, gate)
    | none => (.beginInit, gate.setCell package (.running thread))
  | .beginInit => (.answered .claimed, gate.withdraw thread)
  | .leave outcome => (.answered (.outcome outcome), gate.withdraw thread)
  | .answered answer => (.answered answer, gate)

end Gate

namespace GatePhase

/-- The answer, once the gate has given it. -/
def answer? : GatePhase → Option GateAnswer
  | answered answer => some answer
  | _ => none

/-- How many operations it takes at most until the waits have been counted. -/
def untilCounted : GatePhase → Nat
  | lookForMark => 6
  | judgeMark _ => 5
  | openCell => 4
  | lookForOutcome => 3
  | announceWait => 2
  | countWaits => 1
  | _ => 0

/-- How many operations it takes at most until the answer, once the waits have been counted. -/
def untilAnswered : GatePhase → Nat
  | findHolder _ turns => 2 * turns + 3
  | findWait _ turns => 2 * turns + 4
  | refuse | enterCell => 2
  | beginInit | leave _ => 1
  | _ => 0

/-- Every operation brings the count of the waits nearer. -/
theorem untilCounted_advance (thread : ThreadId) (package : String) (descends : ContextId → Bool)
    (gate : Gate) (phase : GatePhase) :
    (gate.advance thread package descends phase).1.untilCounted ≤ phase.untilCounted - 1 := by
  cases phase with
  | lookForMark => simp only [Gate.advance]; split <;> simp [untilCounted]
  | judgeMark mark =>
    simp only [Gate.advance]
    split
    · simp [untilCounted]
    · split <;> simp [untilCounted]
  | openCell => simp only [Gate.advance]; split <;> simp [untilCounted]
  | lookForOutcome => simp only [Gate.advance]; split <;> simp [untilCounted]
  | announceWait => simp [Gate.advance, untilCounted]
  | countWaits => simp [Gate.advance, untilCounted]
  | findHolder held turns =>
    cases turns with
    | zero => simp [Gate.advance, untilCounted]
    | succ turns =>
      simp only [Gate.advance]
      split
      · simp [untilCounted]
      · split <;> simp [untilCounted]
  | findWait holder turns => simp only [Gate.advance]; split <;> simp [untilCounted]
  | refuse => simp [Gate.advance, untilCounted]
  | enterCell => simp only [Gate.advance]; split <;> simp [untilCounted]
  | beginInit => simp [Gate.advance, untilCounted]
  | leave outcome => simp [Gate.advance, untilCounted]
  | answered answer => simp [Gate.advance, untilCounted]

/-- Once the waits have been counted, every operation brings the answer nearer, whatever the maps
hold by then. -/
theorem untilAnswered_advance (thread : ThreadId) (package : String)
    (descends : ContextId → Bool) (gate : Gate) (phase : GatePhase)
    (counted : phase.untilCounted = 0) :
    (gate.advance thread package descends phase).1.untilAnswered ≤ phase.untilAnswered - 1 := by
  cases phase with
  | lookForMark | judgeMark _ | openCell | lookForOutcome | announceWait | countWaits =>
    simp [untilCounted] at counted
  | findHolder held turns =>
    cases turns with
    | zero => simp [Gate.advance, untilAnswered]
    | succ turns =>
      simp only [Gate.advance]
      split
      · simp [untilAnswered]
      · split <;> simp only [untilAnswered] <;> omega
  | findWait holder turns =>
    simp only [Gate.advance]
    split <;> simp [untilAnswered]
  | refuse => simp [Gate.advance, untilAnswered]
  | enterCell => simp only [Gate.advance]; split <;> simp [untilAnswered]
  | beginInit => simp [Gate.advance, untilAnswered]
  | leave outcome => simp [Gate.advance, untilAnswered]
  | answered answer => simp [Gate.advance, untilAnswered]

theorem isSome_answer?_of_done {phase : GatePhase} (counted : phase.untilCounted = 0)
    (nothingLeft : phase.untilAnswered = 0) : phase.answer?.isSome = true := by
  cases phase <;> simp_all [untilCounted, untilAnswered, answer?]

end GatePhase

end WorkerMachine
