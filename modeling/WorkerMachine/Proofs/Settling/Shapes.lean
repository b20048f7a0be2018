import WorkerMachine.Proofs.Settling.Handles
/-!
# The shapes of invocations

A call with registers takes its arguments from the registers of its caller and puts its results there;
a call with values lowers its arguments into fresh registers and raises its results from fresh ones;
and a call may be made step by step, with the first worker run before the call is joined.  They differ
in the registers that they use and in the way in which they look at the answer, and are one otherwise.
-/

namespace WorkerMachine

open Settling

/-- What a caller comes to by the answer of a call that it has made with its registers. -/
def Context.receive (context : Context) (answer : Except Interruption Unit × RegisterFile) :
    Except Interruption Unit × Context :=
  match answer with
  | (.error (.fault (.propagated error)), locals) =>
    (.error (.fault (.propagated error)), { context with locals := locals }.raise error)
  | (outcome, locals) => (outcome, { context with locals := locals })

theorem Context.receive_error (context : Context) (locals : RegisterFile)
    {interruption : Interruption}
    (notRaised : ∀ error, interruption ≠ .fault (.propagated error)) :
    context.receive (.error interruption, locals) =
      (.error interruption, { context with locals := locals }) := by
  unfold receive
  split
  · next isError =>
    cases isError
    exact absurd rfl (notRaised _)
  · next isOther =>
    cases isOther
    rfl

def Callable.answer (unit : Callable) (answer : Except Interruption Unit × RegisterFile) :
    Except Interruption (List Value) :=
  match answer with
  | (.error interruption, _) => .error interruption
  | (.ok (), results) =>
    match Marshalling.raise unit.returns results with
    | .ok values => .ok values
    | .error overrun => .error overrun.interruption

/-- What a call that is made step by step comes to, seen by a caller with registers. -/
def Context.receiveStepwise (context : Context) :
    Except Interruption (Except Interruption Unit × RegisterFile) →
      Except Interruption Unit × Context
  | .ok answer => context.receive answer
  | .error interruption => (.error interruption, context)

/-- What a call that is made step by step comes to, seen by a caller with values. -/
def Callable.answerStepwise (unit : Callable) :
    Except Interruption (Except Interruption Unit × RegisterFile) →
      Except Interruption (List Value)
  | .ok answer => unit.answer answer
  | .error interruption => .error interruption

theorem Context.leftAs_receiveStepwise (context : Context)
    (outcome : Except Interruption (Except Interruption Unit × RegisterFile)) :
    context.LeftAs (context.receiveStepwise outcome).2 := by
  cases outcome with
  | error interruption => exact ⟨rfl, rfl, rfl, rfl⟩
  | ok answer =>
    unfold receiveStepwise receive
    dsimp only
    split
    · exact ⟨rfl, rfl, rfl, rfl⟩
    · exact ⟨rfl, rfl, rfl, rfl⟩

/-- What is forgotten leaves nothing in hand. -/
theorem Settling.Ends.hand_eq {parent : ContextId} {response : ResponseId} {docket : Docket}
    {rest hand : Settling.Hand} {target : RegisterFile} {indices : List Nat}
    {answer : Except Interruption Unit × RegisterFile}
    (ends : Ends false parent response docket rest target indices answer hand) : hand = rest := by
  cases ends with
  | refused _ => rfl
  | closed account => rfl

/-- The books about what is requested, once these tasks have been made. -/
def Settling.Request.docket (request : Request) (made : List Task) : Docket :=
  ⟨request.unit, request.parent, request.source, request.arguments, request.waits, made, false⟩

def Settling.Request.openResponse (request : Request) : Effect ResponseId := do
  Effect.ofExcept (request.unit.checkArity request.arguments.length)
  Effect.atomically (Machine.openResponse request.unit.returns request.waits
    request.unit.workers.length)

namespace Station

/-- Run the first worker of an invocation so many times.  Only the first time does anything. -/
def runFirstTimes (station : Station) : Nat → Invocation → Effect Invocation
  | 0, invocation => pure invocation
  | times + 1, invocation => do
    let _ ← station.runFirst invocation
    runFirstTimes station times { invocation with callerTask := none }

/-- Dispatch what is requested, run its first worker so many times, and join it. -/
def invokeInSteps (station : Station) (request : Request) (early : Nat) (target : RegisterFile)
    (indices : List Nat) : Effect (Except Interruption Unit × RegisterFile) := do
  let invocation ← station.dispatch request.unit request.parent request.source request.arguments
    request.waits
  let left ← station.runFirstTimes early invocation
  (station.join left target indices : Work _)

/-- What is left of an invocation in steps once its response has been opened. -/
def goOnInSteps (station : Station) (request : Request) (early : Nat) (target : RegisterFile)
    (indices : List Nat) (response : ResponseId) :
    Effect (Except Interruption Unit × RegisterFile) := do
  let invocation ← station.makeTasks (request.docket []) response
  let left ← station.runFirstTimes early invocation
  (station.join left target indices : Work _)

variable {token rest : Settling.Hand} {station : Station} {unit : Callable} {parent : Context}
  {request : Request} {early : Nat} {target : RegisterFile} {indices : List Nat}
  {response : ResponseId} {docket : Docket} {invocation : Invocation}

/-! ## One invocation in three shapes -/

theorem run_invokeInSteps_zero (station : Station) (request : Request) (target : RegisterFile)
    (indices : List Nat) :
    (station.invokeInSteps request 0 target indices).run =
      (station.begin request).bind fun
        | .ok invocation => (station.join invocation target indices).bind fun answer =>
          .done (.ok answer)
        | .error interruption => .done (.error interruption) := by
  unfold invokeInSteps
  rw [Effect.run_bind]
  unfold begin
  congr 1
  funext outcome
  cases outcome with
  | error interruption => rfl
  | ok invocation =>
    dsimp only
    rw [Effect.run_bind]
    rfl

/-- A call with registers joins what it has dispatched at once. -/
theorem callRegisters_eq_invokeInSteps (station : Station) (unit : Callable) (context : Context)
    (arguments returns : List Nat) :
    (station.callRegisters unit arguments returns).runOn context =
      (station.invokeInSteps ⟨unit, context, context.locals, arguments, true⟩ 0 context.locals
        returns).run.bind fun outcome => .done (context.receiveStepwise outcome) := by
  rw [run_invokeInSteps_zero]
  unfold callRegisters
  simp only [Routine.runOn_bind, Routine.runOn_get, Process.done_bind, Routine.runOn_effect,
    Process.bind_assoc]
  unfold begin
  congr 1
  funext outcome
  cases outcome with
  | error interruption => rfl
  | ok invocation =>
    dsimp only
    simp only [Routine.runOn_work, Process.bind_assoc, Process.done_bind]
    congr 1
    funext ⟨outcome, locals⟩
    dsimp only [Context.receiveStepwise]
    split
    · rfl
    · rfl
    · next interruption notRaised =>
      rw [context.receive_error locals notRaised]
      rfl

/-- A call with values joins what it has dispatched at once, with fresh registers on both sides. -/
theorem callValues_eq_invokeInSteps (station : Station) (parent : Context) {arguments : List Value}
    {source : RegisterFile} (arity : unit.params.length = arguments.length)
    (lowered : Marshalling.lower unit.params arguments = .ok source) :
    (station.callValues unit parent arguments).run =
      (station.invokeInSteps ⟨unit, parent, source, unit.params.indices, true⟩ 0
        (.ofSizes unit.returns.sizes) unit.returns.indices).run.bind
          fun outcome => .done (unit.answerStepwise outcome) := by
  have checked : unit.checkArity arguments.length = .ok () := by
    unfold Callable.checkArity
    rw [if_pos arity]
  rw [run_invokeInSteps_zero]
  unfold callValues
  rw [checked, lowered]
  simp only [Effect.ofExcept, pure_bind]
  have skipped : ∀ follow : RegisterFile → Effect (List Value),
      (ExceptT.mk (pure (.ok source)) >>= follow) = follow source :=
    fun _ => rfl
  rw [skipped, Effect.run_bind, Process.bind_assoc]
  unfold begin
  congr 1
  funext outcome
  cases outcome with
  | error interruption => rfl
  | ok invocation =>
    dsimp only
    rw [Effect.run_bind, Process.bind_assoc]
    have lifted : ∀ {First : Type} (work : Work First), (liftM work : Effect First).run =
        work.bind fun answer => .done (.ok answer) := fun _ => rfl
    rw [lifted, Process.bind_assoc]
    congr 1
    funext answer
    obtain ⟨outcome, results⟩ := answer
    cases outcome with
    | error interruption => rfl
    | ok _ =>
      simp only [Process.done_bind, Callable.answerStepwise, Callable.answer]
      cases Marshalling.raise unit.returns results with
      | error overrun => rfl
      | ok values => rfl

/-- Once the number of the arguments has been checked, an invocation opens its response. -/
theorem invokeInSteps_eq (station : Station) :
    station.invokeInSteps request early target indices =
      request.openResponse >>= station.goOnInSteps request early target indices := by
  have dispatched := station.dispatch_eq (request.docket [])
  simp only [Request.docket] at dispatched
  unfold invokeInSteps Request.openResponse
  rw [dispatched]
  simp only [bind_assoc]
  rfl

/-! ## Keeping the books -/

/-- The books about what is requested are opened, if the number of its arguments is right. -/
theorem openRequested_settles {thread : ThreadId} (sound : request.unit.Sound) :
    request.openResponse.Follows .settling thread token
      (fun response last => last = .call response (request.docket []) none :: token)
      fun _ last => last = token := by
  have checked : (Effect.ofExcept (request.unit.checkArity request.arguments.length)).Follows
      .settling thread token (fun _ last => last = token) fun _ last => last = token :=
    Effect.follows_ofExcept (fun _ _ => rfl) fun _ _ => rfl
  apply checked.bind
  rintro _ _ rfl
  exact openResponse_settles (request.docket []) sound rfl

variable (tasks : station.SettlesTasks)

include tasks

theorem runFirstTimes_settles (early : Nat) :
    (station.runFirstTimes early invocation).Follows .settling station.thread
      (invocation.kept ++ rest)
      (fun left last => left.parent = invocation.parent ∧ left.response = invocation.response ∧
        last = left.kept ++ rest) fun _ _ => False := by
  induction early generalizing invocation with
  | zero => exact ⟨rfl, rfl, rfl⟩
  | succ early inductionHypothesis =>
    unfold runFirstTimes
    apply Effect.Follows.bind (runFirst_settles tasks)
    rintro _ _ rfl
    exact @inductionHypothesis { invocation with callerTask := none }

/-- An invocation in steps that is forgotten leaves the hand as it is. -/
theorem invokeInSteps_settles (sound : request.unit.Sound) :
    (station.invokeInSteps request early target indices).run.Follows .settling station.thread token
      fun _ last => last = token := by
  have invoked : (station.invokeInSteps request early target indices).Follows .settling
      station.thread token (fun _ last => last = token) fun _ last => last = token := by
    unfold invokeInSteps
    apply Effect.Follows.bind ((dispatch_settles tasks sound request.parent request.source
      request.arguments request.waits).weaken (fun _ _ => id) fun _ _ => And.right)
    rintro invocation _ ⟨made, task, response, _, _, rfl, rfl⟩
    let invocation : Invocation := ⟨request.unit, request.parent.id, response, some task⟩
    have ran : (station.runFirstTimes early invocation).Follows .settling station.thread
        (.task task .ready :: .call response (request.docket made) none :: token)
        (fun left last => left.parent = request.parent.id ∧ left.response = response ∧
          last = left.kept ++ .call response (request.docket made) none :: token) fun _ _ => False :=
      runFirstTimes_settles tasks early
    apply Effect.Follows.bind ran.of_never
    rintro left _ ⟨_, isResponse, rfl⟩
    apply Effect.follows_work
    apply Process.Follows.weaken (join_settles tasks false isResponse target indices)
    exact fun _ _ ends => ends.hand_eq
  apply Process.Follows.weaken invoked
  intro outcome last reached
  cases outcome with
  | ok _ => exact reached
  | error _ => exact reached

end Station

end WorkerMachine
