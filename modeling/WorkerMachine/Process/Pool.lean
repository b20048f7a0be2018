import WorkerMachine.Process.Basic
/-!
# Pools of processes

A pool runs processes beside each other over one state.  Time is counted in milliseconds and moves
on only when no process can take a step, straight to the moment when the first sleeper wakes.
-/

namespace WorkerMachine

/-- A process of a pool and the moment before which it does not go on. -/
structure Member (State Answer : Type) where
  process : Process State (Option Answer)
  wakes : Nat

/-- Processes over one state, the present moment, and the answers given so far, latest first. -/
structure Pool (State Answer : Type) where
  state : State
  clock : Nat
  members : List (Member State Answer)
  answers : List Answer

namespace Pool

variable {State Answer : Type}

/-- What one member can do at the present moment. -/
inductive Move (State Answer : Type) where
  /-- It has ended. -/
  | ended (answer : Option Answer)
  /-- It takes a step. -/
  | stepped (state : State) (process : Process State (Option Answer))
  /-- It falls asleep. -/
  | asleep (wakes : Nat) (process : Process State (Option Answer))
  /-- It has to wait. -/
  | blocked

def Member.move (member : Member State Answer) (state : State) (clock : Nat) :
    Move State Answer :=
  if clock < member.wakes then .blocked
  else match member.process with
    | .done answer => .ended answer
    | .step ready update next =>
      if ready state then .stepped (update state) (next state) else .blocked
    | .sleep milliseconds next => .asleep (clock + milliseconds) next

/-- Let the first member move that can; `passed` holds the members in front, last one first. -/
def advanceMembers (pool : Pool State Answer) :
    List (Member State Answer) → List (Member State Answer) → Option (Pool State Answer)
  | _, [] => none
  | passed, member :: rest =>
    match Member.move member pool.state pool.clock with
    | .ended answer =>
      some { pool with members := passed.reverse ++ rest, answers := answer.toList ++ pool.answers }
    | .stepped state process =>
      some { pool with
        state := state
        members := passed.reverse ++ ⟨process, member.wakes⟩ :: rest }
    | .asleep wakes process =>
      some { pool with members := passed.reverse ++ ⟨process, wakes⟩ :: rest }
    | .blocked => advanceMembers pool (member :: passed) rest

def nextWaking (pool : Pool State Answer) : Option Nat :=
  ((pool.members.map Member.wakes).filter fun moment => pool.clock < moment).min?

/-- One move of the pool: a member moves, or else time moves on. -/
def advance (pool : Pool State Answer) : Option (Pool State Answer) :=
  match advanceMembers pool [] pool.members with
  | some after => some after
  | none => pool.nextWaking.map fun moment => { pool with clock := moment }

/-- Take the processes that the last move has asked for into the pool. -/
def enroll (spawn : State → List (Process State (Option Answer)) × State)
    (pool : Pool State Answer) : Pool State Answer :=
  let (processes, state) := spawn pool.state
  { pool with
    state := state
    members := pool.members ++ processes.map fun process => ⟨process, pool.clock⟩ }

/-- Run a pool until no member can move any more, for at most `bound` moves. -/
def run (spawn : State → List (Process State (Option Answer)) × State) :
    Nat → Pool State Answer → Pool State Answer
  | 0, pool => pool
  | bound + 1, pool =>
    match pool.advance with
    | some after => run spawn bound (after.enroll spawn)
    | none => pool

def ofProcesses (state : State) (processes : List (Process State (Option Answer))) :
    Pool State Answer :=
  ⟨state, 0, processes.map fun process => ⟨process, 0⟩, []⟩

end Pool

end WorkerMachine
