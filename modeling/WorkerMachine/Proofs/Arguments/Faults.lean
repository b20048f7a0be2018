import WorkerMachine.Machine.Runner
import WorkerMachine.Proofs.Process.Staying
import WorkerMachine.Proofs.Script.Rejection
/-!
# Faults about the kinds of arguments

That an argument is not of the kind of its parameter is found only where arguments are lowered.  What
responses and the gate hand on are faults that others have come to, and every other fault of the
machine is about something else.  So a machine on which all arguments are of the right kinds never
has such a fault, whatever its workers do.
-/

namespace WorkerMachine

def Fault.isMismatch : Fault → Bool
  | .bankMismatch _ _ _ => true
  | _ => false

def Matched {Answer : Type} (outcome : Except Fault Answer) : Prop :=
  ∀ fault, outcome = .error fault → fault.isMismatch = false

def Interruption.Matched (interruption : Interruption) : Prop :=
  ∀ fault, interruption = .fault fault → fault.isMismatch = false

def EndsMatched {Answer : Type} (outcome : Except Interruption Answer) : Prop :=
  ∀ interruption, outcome = .error interruption → interruption.Matched

def WorkerOutcome.Matched (outcome : WorkerOutcome) : Prop :=
  ∀ fault, outcome = .faulted fault → fault.isMismatch = false

def Response.Matched (response : Response) : Prop :=
  ∀ fault, response.fault = some fault → fault.isMismatch = false

/-- No init has ended with the fault of an argument of the wrong kind. -/
def Gate.Matched (gate : Gate) : Prop :=
  ∀ package outcome, gate.outcome? package = some outcome → WorkerMachine.Matched outcome

/-- A phase of a passage that does not hold the fault of an argument of the wrong kind. -/
def GatePhase.Matched : GatePhase → Prop
  | .leave outcome | .answered (.outcome outcome) => WorkerMachine.Matched outcome
  | _ => True

/-- Neither the responses nor the gate of a machine hold the fault of an argument of the wrong kind. -/
structure Machine.Matched (machine : Machine) : Prop where
  responses : ∀ response ∈ machine.responses, response.Matched
  gate : machine.gate.Matched

/-- Every step of an effect keeps faults about the kinds of arguments off the machine, and so does an
interruption; the answer reaches a goal. -/
def Effect.Matches {Answer : Type} (effect : Effect Answer) (goal : Answer → Prop) : Prop :=
  effect.Follows (.keeping Unit Machine.Matched) () () (fun answer _ => goal answer)
    fun interruption _ => interruption.Matched

/-- Every step of a routine keeps faults about the kinds of arguments off the machine, on whatever
context it runs, and so does an interruption. -/
def Routine.Matches {Answer : Type} (routine : Routine Answer) : Prop :=
  ∀ context, routine.Follows (.keeping Unit Machine.Matched) () context () (fun _ _ _ => True)
    fun interruption _ _ => interruption.Matched

variable {Answer First Second : Type}

theorem matched_ok (answer : Answer) : Matched (.ok answer) :=
  nofun

theorem matched_error {fault : Fault} (isOther : fault.isMismatch = false) :
    Matched (.error fault : Except Fault Answer) := by
  intro other same
  cases same
  exact isOther

theorem Interruption.matched_fault {fault : Fault} (isOther : fault.isMismatch = false) :
    (Interruption.fault fault).Matched := by
  intro other same
  cases same
  exact isOther

theorem Interruption.matched_panic (payload : PanicPayload) : (Interruption.panic payload).Matched :=
  nofun

theorem Interruption.matched_exhausted : Interruption.exhausted.Matched :=
  nofun

/-! ## Faults that are about something else -/

theorem Arena.matched_transition (arena : Arena) (id : ContextId) (next : ContextState) :
    Matched (arena.transition id next).1 := by
  intro fault refused
  obtain ⟨state, rfl⟩ := Arena.fault_of_transition refused
  rfl

theorem Arena.matched_beginWait (arena : Arena) (id : ContextId) :
    Matched (arena.beginWait id).1 := by
  intro fault refused
  obtain ⟨state, rfl⟩ := Arena.fault_of_beginWait refused
  rfl

theorem Arena.matched_suspend (arena : Arena) (id : ContextId) :
    Matched (arena.suspend id).1 := by
  unfold Arena.suspend
  split
  · exact nofun
  · exact nofun
  · exact arena.matched_beginWait id

theorem Callable.matched_checkArity (unit : Callable) (count : Nat) :
    Matched (unit.checkArity count) := by
  unfold Callable.checkArity
  split
  · exact matched_ok ()
  · exact matched_error rfl

theorem Program.matched_package (program : Program) (name : String) :
    Matched (program.package name) := by
  unfold Program.package
  split
  · exact matched_ok _
  · exact matched_error rfl

theorem Program.matched_function (found : Package) (package name : String) :
    Matched (Program.function found package name) := by
  unfold Program.function
  split
  · exact matched_ok _
  · exact matched_error rfl

theorem matched_readConstant (package : Package) (globals : RegisterFile)
    (constant : ConstantAttribute) : Matched (readConstant package globals constant) := by
  unfold readConstant
  split
  · exact matched_error rfl
  · split
    · split
      · exact matched_error rfl
      · split
        · exact matched_ok _
        · exact matched_error rfl
    · exact matched_error rfl

theorem matched_readConstants (package : Package) (globals : RegisterFile)
    (constants : List ConstantAttribute) : Matched (readConstants package globals constants) := by
  induction constants with
  | nil => exact matched_ok []
  | cons constant rest inductionHypothesis =>
      unfold readConstants
      split
      · next fault isFault =>
        exact matched_error (matched_readConstant package globals constant fault isFault)
      · split
        · next fault isFault => exact matched_error (inductionHypothesis fault isFault)
        · exact matched_ok _

/-- What an init comes to is a failure of the package, whatever its init unit has failed with. -/
theorem matched_initOutcome (style : TraceStyle) (package : String) (raised : Option ErrorValue)
    (outcome : Except Fault Unit) : Matched (initOutcome style package raised outcome) := by
  unfold initOutcome
  split
  · exact matched_error rfl
  · next fault =>
    split
    · next isFatal =>
      refine matched_error ?_
      cases fault <;> cases isFatal
      rfl
    · exact matched_error rfl
  · exact matched_ok ()

/-- A worker breaks down with what its body has failed with, or with a panic. -/
theorem matched_judge (context : Context) {outcome : Except Interruption WorkerExit}
    (matched : EndsMatched outcome) : (judge context outcome).Matched := by
  intro fault isFault
  unfold judge at isFault
  split at isFault
  · split at isFault
    · cases isFault
    · split at isFault <;> cases isFault
  · cases isFault
  · next other _ =>
    cases isFault
    exact matched _ rfl fault rfl
  · cases isFault
    rfl
  · cases isFault
    rfl

/-! ## Changes of the gate -/

namespace Gate

variable {gate : Gate}

theorem Matched.setCell (matched : gate.Matched) (name : String) {cell : InitCell}
    (cellMatched : ∀ outcome, cell = .settled outcome → WorkerMachine.Matched outcome) :
    (gate.setCell name cell).Matched := by
  intro package outcome settled
  unfold outcome? Gate.setCell at settled
  rw [Table.get?_insert] at settled
  by_cases same : name = package
  · rw [if_pos same] at settled
    cases cell with
    | settled held =>
        cases settled
        exact cellMatched outcome rfl
    | untouched => cases settled
    | running thread => cases settled
  · rw [if_neg same] at settled
    exact matched package outcome settled

/-- What leaves the cells alone leaves the outcomes alone. -/
theorem Matched.of_cells {later : Gate} (matched : gate.Matched) (cells : later.cells = gate.cells) :
    later.Matched := by
  intro package outcome settled
  unfold outcome? at settled
  rw [cells] at settled
  exact matched package outcome settled

/-- A passage takes over an outcome that the gate has, or makes one of its own. -/
theorem Matched.advance (matched : gate.Matched) (thread : ThreadId) (name : String)
    (descends : ContextId → Bool) {phase : GatePhase} (phaseMatched : phase.Matched) :
    (gate.advance thread name descends phase).1.Matched ∧
      (gate.advance thread name descends phase).2.Matched := by
  cases phase with
  | lookForMark =>
      simp only [Gate.advance]
      split
      · exact ⟨trivial, matched⟩
      · exact ⟨trivial, matched⟩
  | judgeMark mark =>
      simp only [Gate.advance]
      split
      · exact ⟨matched_ok (), matched⟩
      · split
        · exact ⟨matched_error rfl, matched⟩
        · exact ⟨trivial, matched⟩
  | openCell =>
      simp only [Gate.advance]
      split
      · exact ⟨trivial, matched⟩
      · exact ⟨trivial, matched.setCell name fun _ same => by cases same⟩
  | lookForOutcome =>
      simp only [Gate.advance]
      split
      · next outcome settled => exact ⟨matched name outcome settled, matched⟩
      · exact ⟨trivial, matched⟩
  | announceWait => exact ⟨trivial, matched.of_cells rfl⟩
  | countWaits => exact ⟨trivial, matched⟩
  | findHolder held turns =>
      cases turns with
      | zero => exact ⟨trivial, matched⟩
      | succ turns =>
          simp only [Gate.advance]
          split
          · exact ⟨trivial, matched⟩
          · split
            · exact ⟨trivial, matched⟩
            · exact ⟨trivial, matched⟩
  | findWait holder turns =>
      simp only [Gate.advance]
      split
      · exact ⟨trivial, matched⟩
      · exact ⟨trivial, matched⟩
  | refuse => exact ⟨matched_error rfl, matched.of_cells rfl⟩
  | enterCell =>
      simp only [Gate.advance]
      split
      · next outcome settled => exact ⟨matched name outcome settled, matched⟩
      · exact ⟨trivial, matched.setCell name fun _ same => by cases same⟩
  | beginInit => exact ⟨trivial, matched.of_cells rfl⟩
  | leave outcome => exact ⟨phaseMatched, matched.of_cells rfl⟩
  | answered answer => exact ⟨phaseMatched, matched⟩

end Gate

/-! ## Changes of the machine -/

/-- A contribution adds no fault but its own. -/
theorem Response.Matched.contribute {response : Response} (matched : response.Matched)
    {outcome : WorkerOutcome} (outcomeMatched : outcome.Matched) (worker : ContextId)
    (result : RegisterFile) : (response.contribute worker outcome result).1.Matched := by
  have staged : (response.enlist worker |>.stage result).1.fault = response.fault := by
    unfold Response.stage
    split
    · rfl
    · dsimp only
      split <;> rfl
  have recorded : ((response.enlist worker).record outcome result).1.Matched := by
    cases outcome with
    | returned =>
        intro fault isFault
        exact matched fault (staged ▸ isFault)
    | finished => exact matched
    | raised error => exact matched
    | faulted fault =>
        intro other isOther
        change response.fault.or (some fault) = some other at isOther
        cases isHeld : response.fault with
        | none =>
            rw [isHeld] at isOther
            cases isOther
            exact outcomeMatched fault rfl
        | some held =>
            rw [isHeld] at isOther
            obtain rfl : held = other := Option.some.inj isOther
            exact matched held isHeld
  unfold Response.contribute
  split
  · split
    · next after isRecorded =>
      rw [isRecorded] at recorded
      have settled : after.settle.1.fault = after.fault := by
        unfold Response.settle
        dsimp only
        split <;> rfl
      exact fun fault isFault => recorded fault (settled ▸ isFault)
    · next after overrun isRecorded =>
      rw [isRecorded] at recorded
      exact recorded
  · exact matched

namespace Machine.Matched

variable {machine later : Machine}

/-- A change of anything but the responses and the gate. -/
theorem of_same (matched : machine.Matched) (responses : later.responses = machine.responses)
    (gate : later.gate = machine.gate) : later.Matched where
  responses := responses ▸ matched.responses
  gate := gate ▸ matched.gate

theorem response (matched : machine.Matched) (id : ResponseId) :
    (machine.response id).Matched := by
  unfold Machine.response
  cases found : machine.responses[id]? with
  | none => exact nofun
  | some response => exact matched.responses response (Array.mem_of_getElem? found)

theorem openResponse (matched : machine.Matched) (returns : Layout) (waits : Bool)
    (expected : Nat) : (machine.openResponse returns waits expected).2.Matched where
  responses := by
    intro response member
    rcases Array.mem_push.mp member with isOld | rfl
    · exact matched.responses response isOld
    · exact nofun
  gate := matched.gate

theorem contribute (matched : machine.Matched) {outcome : WorkerOutcome}
    (outcomeMatched : outcome.Matched) (id : ResponseId) (worker : ContextId)
    (result : RegisterFile) : (machine.contribute id worker outcome result).2.Matched where
  responses := by
    intro response member
    rcases Array.mem_or_eq_of_mem_setIfInBounds member with isOld | rfl
    · exact matched.responses response isOld
    · exact (matched.response id).contribute outcomeMatched worker result
  gate := matched.gate

theorem resolveConstants (matched : machine.Matched) (values : List (Nat × Constant)) :
    (machine.resolveConstants values).Matched := by
  unfold Machine.resolveConstants
  induction values generalizing machine with
  | nil => exact matched
  | cons value rest inductionHypothesis =>
      have resolved : (machine.resolveConstant value.1 value.2).Matched := by
        unfold Machine.resolveConstant
        split
        · exact matched
        · exact matched.of_same rfl rfl
      exact inductionHypothesis resolved

theorem startTask (matched : machine.Matched) (task : Task) :
    (machine.startTask task).2.Matched ∧ WorkerMachine.Matched (machine.startTask task).1 := by
  have moved : (Machine.inArena task.context.arena (fun records =>
      records.transition task.context.id .running) machine).2.Matched ∧
        WorkerMachine.Matched (Machine.inArena task.context.arena (fun records =>
          records.transition task.context.id .running) machine).1 :=
    ⟨matched.of_same rfl rfl, Arena.matched_transition _ _ _⟩
  unfold Machine.startTask
  split
  · next state after isMoved =>
    rw [isMoved] at moved
    exact ⟨moved.1.of_same rfl rfl, moved.2⟩
  · next fault after isRefused =>
    rw [isRefused] at moved
    exact moved

end Machine.Matched

end WorkerMachine
