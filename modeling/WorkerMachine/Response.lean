import WorkerMachine.Registers.Marshalling
/-!
# Responses

A response collects the contributions of the workers of one invocation.  The values are those of the
first worker that returns, the error that of the first worker that raises one, and the fault that of
the first worker that breaks down; a fault outranks an error, and an error outranks values.

What is outstanding is counted by a machine word, and additions to it are checked.
-/

namespace WorkerMachine

inductive WorkerOutcome where
  /-- The worker returned, and its result registers hold the values. -/
  | returned
  /-- The worker came to its end without returning values. -/
  | finished
  /-- The worker raised an error. -/
  | raised (error : ErrorValue)
  /-- The worker broke down. -/
  | faulted (fault : Fault)
  deriving DecidableEq, Repr

/-- What a response has to tell its caller. -/
inductive ResponseOutcome where
  | values
  | error (error : ErrorValue)
  | fault (fault : Fault)
  deriving DecidableEq, Repr

/-- The meeting point of the workers of an invocation and its caller. -/
structure Response where
  returns : Layout
  waits : Bool
  outstanding : Nat
  contributors : List ContextId
  staged : RegisterFile
  hasValues : Bool
  error : Option ErrorValue
  fault : Option Fault
  completions : Nat
  deriving Inhabited

namespace Response

/-- A response that expects nothing yet. -/
def ofReturns (returns : Layout) (waits : Bool) : Response where
  returns := returns
  waits := waits
  outstanding := 0
  contributors := []
  staged := .ofSizes returns.sizes
  hasValues := false
  error := none
  fault := none
  completions := 0

/-- Expect further contributions.  A sum that is no machine word panics instead, before anything has
changed. -/
def expect? (response : Response) (count : Nat) : Option Response :=
  if response.outstanding + count < UInt64.size then
    some { response with outstanding := response.outstanding + count }
  else none

/-- What has become of a response that was to expect further contributions, panic or not. -/
def expect (response : Response) (count : Nat) : Response :=
  (response.expect? count).getD response

/-- A response that expects so many contributions from the beginning. -/
def opening (returns : Layout) (waits : Bool) (expected : Nat) : Response :=
  { ofReturns returns waits with outstanding := expected }

/-- Whether a contribution of a worker would be accepted: something is outstanding and the worker
has not contributed before. -/
def accepts (response : Response) (worker : ContextId) : Bool :=
  response.outstanding ≠ 0 && !response.contributors.contains worker

/-- Count one contribution less, and a completion if it was the last one outstanding. -/
def settle (response : Response) : Response × Bool :=
  let outstanding := response.outstanding - 1
  if outstanding = 0 then
    ({ response with outstanding := 0, completions := response.completions + 1 }, true)
  else ({ response with outstanding := outstanding }, false)

def enlist (response : Response) (worker : ContextId) : Response :=
  { response with contributors := worker :: response.contributors }

/-- Stage the values of a returning worker unless values are staged already. -/
def stage (response : Response) (result : RegisterFile) : Response × Except Overrun Unit :=
  if response.hasValues then (response, .ok ())
  else
    let indices := response.returns.indices
    match Marshalling.copyReturns response.returns result indices response.staged indices with
    | (staged, .ok ()) => ({ response with staged := staged, hasValues := true }, .ok ())
    | (staged, .error overrun) => ({ response with staged := staged }, .error overrun)

/-- Take over what an outcome tells: values, the first error, or the first fault. -/
def record (response : Response) (outcome : WorkerOutcome) (result : RegisterFile) :
    Response × Except Overrun Unit :=
  match outcome with
  | .returned => response.stage result
  | .finished => (response, .ok ())
  | .raised error => ({ response with error := response.error.or (some error) }, .ok ())
  | .faulted fault => ({ response with fault := response.fault.or (some fault) }, .ok ())

/-- Accept the contribution of a worker, and say whether it completed the response.  A second
contribution of a worker, or one when nothing is outstanding, changes nothing.  If staging the
values runs past the end of a bank, the worker stays recorded and its contribution outstanding. -/
def contribute (response : Response) (worker : ContextId) (outcome : WorkerOutcome)
    (result : RegisterFile) : Response × Except Overrun Bool :=
  if response.accepts worker then
    match (response.enlist worker).record outcome result with
    | (recorded, .ok ()) =>
      let (settled, completed) := recorded.settle
      (settled, .ok completed)
    | (recorded, .error overrun) => (recorded, .error overrun)
  else (response, .ok false)

/-- Whether everything expected has arrived, at least once. -/
def isComplete (response : Response) : Bool :=
  response.outstanding = 0 && response.completions ≠ 0

/-- The outcome by rank: a fault, else an error, else values. -/
def outcome (response : Response) : ResponseOutcome :=
  match response.fault, response.error with
  | some fault, _ => .fault fault
  | none, some error => .error error
  | none, none => .values

/-- Copy the collected values into a file at the caller's indices. -/
def deliverInto (response : Response) (target : RegisterFile) (indices : List Nat) :
    RegisterFile × Except Overrun Unit :=
  Marshalling.copyReturns response.returns response.staged response.returns.indices target indices

/-- The first count of contributions is a machine word, so it never panics. -/
theorem expect?_ofReturns (returns : Layout) (waits : Bool) {expected : Nat}
    (isWord : expected < UInt64.size) :
    (ofReturns returns waits).expect? expected = some (opening returns waits expected) := by
  simp [expect?, ofReturns, opening, isWord]

/-- A contribution that is not accepted changes nothing. -/
theorem contribute_eq_of_not_accepts (response : Response) {worker : ContextId}
    (refused : response.accepts worker = false) (outcome : WorkerOutcome) (result : RegisterFile) :
    response.contribute worker outcome result = (response, .ok false) := by
  simp [contribute, refused]

end Response

end WorkerMachine
