import WorkerMachine.Proofs.Agreement.Runs
import WorkerMachine.Proofs.Registers.Seeding
/-!
# The shapes of an invocation agree

A unit is called with registers of the caller, with the values that stand in these registers, or step by
step.  Whatever goes on beside them, three such calls seed their workers with the same registers, and if
their workers conduct themselves alike and their tasks finish in the same order, they come to the same.
-/

namespace WorkerMachine

open Settling

/-! ## Refusals -/

namespace Policy

variable {policy : Policy} {first second : ContextId} {interruption other : Interruption}

theorem refusals_alike (refusesFirst : policy.refusal? first = some interruption)
    (refusesSecond : policy.refusal? second = some other) :
    (∃ payload, policy.threadRefusal? first = some payload ∧ interruption = .panic payload) ∧
        (∃ payload, policy.threadRefusal? second = some payload ∧ other = .panic payload) ∨
      ∃ fault, interruption = .fault fault ∧ other = .fault fault := by
  obtain panicsFirst | ⟨fault, rfl, all⟩ := refusal?_cases refusesFirst
  · obtain panicsSecond | ⟨fault, _, all⟩ := refusal?_cases refusesSecond
    · exact .inl ⟨panicsFirst, panicsSecond⟩
    · obtain ⟨payload, _, rfl⟩ := panicsFirst
      rw [all first] at refusesFirst
      cases refusesFirst
  · rw [all second] at refusesSecond
    cases refusesSecond
    exact .inr ⟨fault, rfl, rfl⟩

/-- A refusal does not hand on an error. -/
theorem propagated?_of_refusal? {fault : Fault}
    (refuses : policy.refusal? first = some (.fault fault)) : fault.propagated? = none := by
  unfold refusal? at refuses
  split at refuses
  · split at refuses
    · cases refuses
      rfl
    · cases refuses
  · split at refuses
    · cases refuses
    · cases refuses
      rfl
    · cases refuses
  · obtain ⟨payload, _, never⟩ := Option.map_eq_some_iff.mp refuses
    cases never

end Policy

/-! ## Answers to requests that are alike -/

namespace Settling.Request.Answers

variable {request other : Request} {policy : Policy}
  {conclude : RegisterFile → List Nat → Except Interruption Unit × RegisterFile}
  {target : RegisterFile} {indices : List Nat}
  {answer : Except Interruption (Except Interruption Unit × RegisterFile)}
  (answers : request.Answers policy conclude target indices answer)

include answers

theorem refused_of_refusal (isScheduled : request.unit.scheduledWorkers ≠ [])
    {context : ContextId} {interruption : Interruption}
    (refuses : policy.refusal? context = some interruption) :
    ∃ own refusal, policy.refusal? own = some refusal ∧ answer = .error refusal := by
  cases answers with
  | refused _ refusesOwn => exact ⟨_, _, refusesOwn, rfl⟩
  | concluded accepts =>
    rw [accepts isScheduled context] at refuses
    cases refuses

/-- Where the scheduler refuses no task, the call is concluded. -/
theorem concluded_of_accepts
    (accepts : request.unit.scheduledWorkers ≠ [] → ∀ context, policy.refusal? context = none) :
    answer = .ok (conclude target indices) := by
  cases answers with
  | refused isScheduled refuses =>
    rw [accepts isScheduled] at refuses
    cases refuses
  | concluded _ _ isConclusion => rw [isConclusion]

end Settling.Request.Answers

/-! ## Three shapes -/

/-- What a call that is made step by step comes to, seen by whoever its results are meant for. -/
def RegisterFile.receiveStepwise (target : RegisterFile) :
    Except Interruption (Except Interruption Unit × RegisterFile) →
      Except Interruption Unit × RegisterFile
  | .ok answer => answer
  | .error interruption => (.error interruption, target)

/-- What three calls come to: one with registers of the parent, with the parent as it is left; one with
values; and one that is made step by step, with its target as it is left. -/
inductive Callable.ShapesAgree (unit : Callable) (policy : Policy) (parent : Context)
    (returns : List Nat) (target : RegisterFile) (indices : List Nat) :
    Except Interruption Unit × Context → Except Interruption (List Value) →
      Except Interruption Unit × RegisterFile → Prop
  /-- The scheduler panics over the name of a thread for one of the tasks. -/
  | panicked {firstContext secondContext thirdContext : ContextId}
      {first second third : PanicPayload} :
      policy.threadRefusal? firstContext = some first →
      policy.threadRefusal? secondContext = some second →
      policy.threadRefusal? thirdContext = some third →
      ShapesAgree unit policy parent returns target indices (.error (.panic first), parent)
        (.error (.panic second)) (.error (.panic third), target)
  /-- The calls fail with the same fault and leave the registers as they are.  An error that the fault
  hands on is left in the error slot of the parent. -/
  | failed (fault : Fault) :
      ShapesAgree unit policy parent returns target indices
        (.error (.fault fault), { parent with error := fault.propagated?.or parent.error })
        (.error (.fault fault)) (.error (.fault fault), target)
  /-- The calls succeed with the same values. -/
  | returned (values : List Value) {locals delivered : RegisterFile} :
      parent.locals.TakesIn (unit.returns.slotsAt returns) values locals →
      target.TakesIn (unit.returns.slotsAt indices) values delivered →
      ShapesAgree unit policy parent returns target indices
        (.ok (), { parent with locals := locals }) (.ok values) (.ok (), delivered)

variable {unit : Callable} {policy : Policy} {parent : Context} {returns indices : List Nat}
  {target : RegisterFile} {conclude : RegisterFile → List Nat → Except Interruption Unit × RegisterFile}

theorem Context.receiveStepwise_fault (context : Context) (fault : Fault) :
    context.receiveStepwise (.ok (.error (.fault fault), context.locals)) =
      (.error (.fault fault), { context with error := fault.propagated?.or context.error }) := by
  cases fault with
  | propagated error => rfl
  | _ => rfl

theorem Layout.Concludes.shapesAgree (concludes : unit.returns.Concludes conclude)
    (returnsComplete : returns.length = unit.returns.length)
    (writable : parent.locals.Covers (unit.returns.slotsAt returns))
    (indicesComplete : indices.length = unit.returns.length)
    (targetWritable : target.Covers (unit.returns.slotsAt indices)) :
    unit.ShapesAgree policy parent returns target indices
      (parent.receiveStepwise (.ok (conclude parent.locals returns)))
      (unit.answerStepwise (.ok (conclude (.ofSizes unit.returns.sizes) unit.returns.indices)))
      (target.receiveStepwise (.ok (conclude target indices))) := by
  cases concludes with
  | failed fault fails =>
    rw [fails, fails, fails, parent.receiveStepwise_fault]
    exact .failed fault
  | returned values fresh isFresh raised delivers =>
    obtain ⟨locals, isLocals, takesIn⟩ := delivers parent.locals returns returnsComplete writable
    obtain ⟨delivered, isDelivered, targetTakesIn⟩ :=
      delivers target indices indicesComplete targetWritable
    rw [isFresh, isLocals, isDelivered]
    unfold Callable.answerStepwise Callable.answer
    dsimp only
    rw [raised]
    exact .returned values takesIn targetTakesIn

theorem Callable.shapesAgree_of_refusals {firstContext secondContext thirdContext : ContextId}
    {first second third : Interruption} (refusesFirst : policy.refusal? firstContext = some first)
    (refusesSecond : policy.refusal? secondContext = some second)
    (refusesThird : policy.refusal? thirdContext = some third) :
    unit.ShapesAgree policy parent returns target indices (parent.receiveStepwise (.error first))
      (unit.answerStepwise (.error second)) (target.receiveStepwise (.error third)) := by
  have secondAlike := Policy.refusals_alike refusesFirst refusesSecond
  have thirdAlike := Policy.refusals_alike refusesFirst refusesThird
  obtain ⟨⟨firstPayload, panicsFirst, rfl⟩, secondPayload, panicsSecond, rfl⟩ | ⟨fault, rfl, rfl⟩ :=
    secondAlike
  · obtain ⟨_, thirdPayload, panicsThird, rfl⟩ | ⟨_, never, _⟩ := thirdAlike
    · exact .panicked panicsFirst panicsSecond panicsThird
    · cases never
  · obtain ⟨⟨_, _, never⟩, _⟩ | ⟨_, same, rfl⟩ := thirdAlike
    · cases never
    · cases same
      -- The fault of a refusal hands on no error, so the error slot of the parent is not touched.
      have unmoved : ({ parent with error := fault.propagated?.or parent.error } : Context) =
          parent := by
        rw [Policy.propagated?_of_refusal? refusesFirst]
        rfl
      have failed : unit.ShapesAgree policy parent returns target indices
          (.error (.fault fault), { parent with error := fault.propagated?.or parent.error })
          (.error (.fault fault)) (.error (.fault fault), target) :=
        .failed fault
      rw [unmoved] at failed
      exact failed

section Registers

variable {arguments : List Nat} {values : List Value} {source : RegisterFile} {request : Request}

/-- What is requested can be dispatched if there is a register for every argument. -/
theorem Settling.Request.ready_of_covers (sound : request.unit.Sound)
    (complete : request.arguments.length = request.unit.params.length)
    (readable : request.source.Covers (request.unit.params.slotsAt request.arguments)) :
    request.Ready where
  sound := sound
  arity := by
    unfold Callable.checkArity
    rw [if_pos complete.symm]
  seeded := by
    intro worker member
    apply Marshalling.exists_seed_of_readable sound.params _ (sound.roomy worker member)
    rintro ⟨bank, index⟩ isArgument
    apply readable ⟨bank, index⟩
    unfold Layout.slotsAt
    rw [← List.map_uncurry_zip_eq_zipWith]
    exact List.mem_map_of_mem isArgument

/-- A request with lowered values can be dispatched if the one with the registers can. -/
theorem Settling.Request.Ready.lowered {waits : Bool}
    (ready : Request.Ready ⟨unit, parent, parent.locals, arguments, true⟩)
    (same : ∀ locals, Marshalling.seed locals unit.params parent.locals arguments =
      Marshalling.seed locals unit.params source unit.params.indices) :
    Request.Ready ⟨unit, parent, source, unit.params.indices, waits⟩ where
  sound := ready.sound
  arity := by
    unfold Callable.checkArity
    exact if_pos (List.length_map _).symm
  seeded := by
    intro worker member
    obtain ⟨locals, seeded⟩ := ready.seeded worker member
    exact ⟨locals, (same worker.locals).symm.trans seeded⟩

end Registers

/-! ## Agreement -/

variable {setup : Setup} {interpreter : Interpreter} {standing : Except Fault Unit}
  {conduct : Worker → RegisterFile → WorkerOutcome × RegisterFile} {order : List Finish}
  {arguments : List Nat}

/-- The shapes of an invocation agree.  Let a unit be called with registers of a parent that runs, with
the values that stand in these registers, and step by step, where the first worker is told to run any
number of times before the call is joined.  Let these calls be made wherever and whenever, with any
number of threads beside them, but let their workers conduct themselves alike and finish in the same
order.  Then all their workers are seeded with the same registers, and the calls come to the same:
either they fail alike, and no register has changed, or they have the same values, which are taken in
one after the other by the registers that they are meant for, while all others stay as they are. -/
theorem invocation_shapes_agree (sound : setup.program.Sound) (settles : interpreter.Settles)
    (built : unit.Sound) (truths : ∀ worker file, (conduct worker file).2.HasTruths)
    (parentTruths : parent.locals.HasTruths)
    (argumentsComplete : arguments.length = unit.params.length)
    (readable : parent.locals.Covers (unit.params.slotsAt arguments))
    (returnsComplete : returns.length = unit.returns.length)
    (writable : parent.locals.Covers (unit.returns.slotsAt returns))
    (indicesComplete : indices.length = unit.returns.length)
    (targetWritable : target.Covers (unit.returns.slotsAt indices)) :
    ∃ values, Marshalling.loadAll parent.locals (unit.params.slotsAt arguments) = .ok values ∧
      ∀ {early : Nat} {outcome : Except Interruption Unit × Context}
        {answer : Except Interruption (List Value)} {result : Except Interruption Unit × RegisterFile}
        {firstBefore firstAfter secondBefore secondAfter thirdBefore thirdAfter : Machine},
        let request : Request := ⟨unit, parent, parent.locals, arguments, false⟩
        setup.Runs interpreter parent standing conduct order
          (fun station => (station.callRegisters unit arguments returns).runOn parent) outcome
          firstBefore firstAfter →
        setup.Runs interpreter parent standing conduct order
          (fun station => (station.callValues unit parent values).run) answer secondBefore
          secondAfter →
        setup.Runs interpreter parent standing conduct order
          (fun station => (station.invokeInSteps request early target indices).run.bind
            fun ended => .done (target.receiveStepwise ended)) result thirdBefore thirdAfter →
        (request.Seeds firstBefore firstAfter ∧ request.Seeds secondBefore secondAfter ∧
            request.Seeds thirdBefore thirdAfter) ∧
          unit.ShapesAgree setup.policy parent returns target indices outcome answer result := by
  obtain ⟨values, loaded, contents⟩ := Marshalling.exists_loadAll readable
  obtain ⟨source, lowered, sameSeeds⟩ :=
    Marshalling.exists_lowered built.params parentTruths argumentsComplete readable loaded
  have arity : unit.params.length = values.length := by
    have sameLength := congrArg List.length contents
    rw [List.length_map, List.length_map, Layout.slotsAt, List.length_zipWith, argumentsComplete,
      Layout.banks, List.length_map] at sameLength
    exact (sameLength.trans (Nat.min_self _)).symm
  refine ⟨values, loaded, ?_⟩
  intro early outcome answer result firstBefore firstAfter secondBefore secondAfter thirdBefore
    thirdAfter request registers boxed stepwise
  let waiting : Request := ⟨unit, parent, parent.locals, arguments, true⟩
  let loweredRequest : Request := ⟨unit, parent, source, unit.params.indices, true⟩
  have ready : request.Ready := Request.ready_of_covers built argumentsComplete readable
  have readyWaiting : waiting.Ready := Request.ready_of_covers built argumentsComplete readable
  have readyLowered : loweredRequest.Ready := readyWaiting.lowered sameSeeds
  -- All three are made in steps, and are looked at in ways of their own.
  obtain ⟨first, rfl, runsFirst⟩ := registers.of_view fun station =>
    station.callRegisters_eq_invokeInSteps unit parent arguments returns
  obtain ⟨second, rfl, runsSecond⟩ := boxed.of_view fun station =>
    station.callValues_eq_invokeInSteps parent arity lowered
  obtain ⟨third, rfl, runsThird⟩ := stepwise.of_view fun _ => rfl
  obtain ⟨answersFirst, seedsFirst⟩ := runsFirst.answers sound settles readyWaiting truths
  obtain ⟨answersSecond, seedsSecond⟩ := runsSecond.answers sound settles readyLowered truths
  obtain ⟨answersThird, seedsThird⟩ := runsThird.answers sound settles ready truths
  -- Lowered values seed the workers as the registers do from which they have been loaded.
  have sameConclusion : loweredRequest.conclude standing conduct order =
      request.conclude standing conduct order := by
    have same : loweredRequest.seeds = request.seeds := by
      funext worker
      unfold Request.seeds
      rw [sameSeeds worker.locals]
    unfold Request.conclude
    rw [same]
  refine ⟨⟨seedsFirst, fun task started => ?_, seedsThird⟩, ?_⟩
  · rw [sameSeeds task.worker.locals]
    exact seedsSecond task started
  · rw [sameConclusion] at answersSecond
    cases answersFirst with
    | refused isScheduled refuses =>
      obtain ⟨_, _, refusesSecond, rfl⟩ := answersSecond.refused_of_refusal isScheduled refuses
      obtain ⟨_, _, refusesThird, rfl⟩ := answersThird.refused_of_refusal isScheduled refuses
      exact Callable.shapesAgree_of_refusals refuses refusesSecond refusesThird
    | concluded accepts concludes isConclusion =>
      rw [isConclusion, answersSecond.concluded_of_accepts accepts,
        answersThird.concluded_of_accepts accepts]
      exact concludes.shapesAgree returnsComplete writable indicesComplete targetWritable

/-! ## Doubling -/

def Context.doubled (context : Context) : Context :=
  let number := context.locals.longs.getD 0 0
  { context with results := context.results.putCell 0 (.long (number + number)) }

def Interpreter.doubles : Interpreter := fun _ => do
  modify Context.doubled
  return .returned

theorem Interpreter.doubles_settles : doubles.Settles := by
  intro station _ _ context token
  have ended : ((doubles station).runOn context) = .done (.ok .returned, context.doubled) := rfl
  rw [ended]
  exact Process.stays_done ⟨rfl, rfl, rfl, RegisterFile.sizes_putCell ..⟩

def Callable.doubling : Callable where
  package := "package"
  name := "double"
  kind := .function
  params := ⟨[.int], [⟨.int, 0⟩], BankSizes.zero.grow .int⟩
  returns := ⟨[.int], [⟨.int, 0⟩], BankSizes.zero.grow .int⟩
  callerWorker := ⟨"first", 0, BankSizes.zero.grow .int⟩
  scheduledWorkers := [⟨"second", 1, BankSizes.zero.grow .int⟩]

theorem Callable.doubling_sound : doubling.Sound :=
  @Callable.sound_of_build "package" "double" .function [.int] [.int]
    [("first", .zero), ("second", .zero)] _ rfl

def Callable.doublingConduct (_ : Worker) (file : RegisterFile) : WorkerOutcome × RegisterFile :=
  let number := file.longs.getD 0 0
  (.returned, (RegisterFile.ofSizes doubling.returns.sizes).putCell 0 (.long (number + number)))

def Setup.queueing : Setup :=
  ⟨default, .rehearsed .fifo, .full⟩

theorem Setup.queueing_sound : queueing.program.Sound := by
  intro name package isPackage
  cases isPackage

/-- The machine when a root has been opened where nothing has been called before. -/
def Machine.rooted : Machine :=
  (Machine.inArena ownArena (fun records => records.register ⟨none, .running, Arena.rootLabel⟩)
    (Machine.start default .empty)).2

def Context.numbered : Context :=
  { Context.root 1 none Machine.ownArena Machine.ownProperties with locals := { longs := #[21] } }

/-- What is seen of the answer of a call on this machine if nobody else moves, whether the workers have
conducted themselves so, and how the tasks have finished. -/
def Callable.doublingAlone {First Seen : Type} (view : First → Seen) (call : Work First) :
    Option (Seen × Bool × List Finish) :=
  (call.runAlone Machine.rooted).map fun ran =>
    (view ran.1, decide (∀ ending ∈ ran.2.endings 0,
        (judge ending.after ending.outcome, ending.after.results) =
          doublingConduct ending.task.worker ending.task.context.locals),
      ran.2.finishes 0)

theorem Callable.exists_run_of_doublingAlone {First Seen : Type} {view : First → Seen} {seen : Seen}
    {call : Station → Work First} {ready : Machine → Bool} {update : Machine → Machine}
    {next : Machine → Work First}
    (begins : call (Setup.queueing.station .doubles 0 3) = .step ready update next)
    (alone : doublingAlone view (call (Setup.queueing.station .doubles 0 3)) =
      some (seen, true, order)) :
    ∃ answer last, view answer = seen ∧ Setup.queueing.Runs .doubles .numbered (.ok ())
      doublingConduct order call answer Machine.rooted last := by
  obtain ⟨⟨answer, last⟩, ran, isLast⟩ := Option.map_eq_some_iff.mp alone
  simp only [Prod.mk.injEq, decide_eq_true_eq] at isLast
  obtain ⟨isSeen, conducts, isOrder⟩ := isLast
  have opens : (openRoot Machine.ownArena Machine.ownProperties).run.runAlone
      (Machine.start default .empty) =
        some (.ok (.root 1 none Machine.ownArena Machine.ownProperties), Machine.rooted) :=
    rfl
  exact ⟨answer, last, isSeen, .of_alone Setup.queueing_sound Interpreter.doubles_settles
    (Machine.start_uncalled default .empty) opens rfl rfl begins ran conducts isOrder⟩

/-- A root calls a unit that doubles a number, with the same register for the argument and the result.
One of the workers is left to the scheduler, and step by step the other one is run at once. -/
theorem invocation_shapes_agree_of_doubling :
    let parent := Context.numbered
    let unit := Callable.doubling
    let request : Request := ⟨unit, parent, parent.locals, [0], false⟩
    ∃ outcome answer result first second third,
      ((request.Seeds .rooted first ∧ request.Seeds .rooted second ∧ request.Seeds .rooted third) ∧
        unit.ShapesAgree Setup.queueing.policy parent [0] parent.locals [0] outcome answer result) ∧
      (outcome.1.toOption = some () ∧ outcome.2.locals = { longs := #[42] }) ∧
      answer.toOption = some [.int 42] ∧
      result.1.toOption = some () ∧ result.2 = { longs := #[42] } := by
  intro parent unit request
  let order : List Finish :=
    [.ended unit.callerWorker, .ended ⟨"second", 1, BankSizes.zero.grow .int⟩]
  have registers : Callable.doublingAlone (fun answer => (answer.1.toOption, answer.2.locals))
      (((Setup.queueing.station .doubles 0 3).callRegisters unit [0] [0]).runOn parent) =
        some ((some (), { longs := #[42] }), true, order) := by
    decide +kernel
  have boxed : Callable.doublingAlone Except.toOption
      ((Setup.queueing.station .doubles 0 3).callValues unit parent [.int 21]).run =
        some (some [.int 42], true, order) := by
    decide +kernel
  have stepwise : Callable.doublingAlone (fun answer => (answer.1.toOption, answer.2))
      (((Setup.queueing.station .doubles 0 3).invokeInSteps request 2 parent.locals [0]).run.bind
        fun ended => .done (parent.locals.receiveStepwise ended)) =
          some ((some (), { longs := #[42] }), true, order) := by
    decide +kernel
  obtain ⟨outcome, first, isOutcome, runsFirst⟩ := @Callable.exists_run_of_doublingAlone order _ _ _ _
    (fun station => (station.callRegisters unit [0] [0]).runOn parent) _ _ _ rfl registers
  obtain ⟨answer, second, isAnswer, runsSecond⟩ := @Callable.exists_run_of_doublingAlone order _ _ _ _
    (fun station => (station.callValues unit parent [.int 21]).run) _ _ _ rfl boxed
  obtain ⟨result, third, isResult, runsThird⟩ := @Callable.exists_run_of_doublingAlone order _ _ _ _
    (fun station => (station.invokeInSteps request 2 parent.locals [0]).run.bind
      fun ended => .done (parent.locals.receiveStepwise ended)) _ _ _ rfl stepwise
  have truths : ∀ worker file, (Callable.doublingConduct worker file).2.HasTruths :=
    fun _ _ => RegisterFile.hasTruths_ofSizes unit.returns.sizes
  have parentTruths : parent.locals.HasTruths :=
    fun number member => absurd member (Array.not_mem_empty number)
  have complete : [0].length = unit.params.length := rfl
  have covered : parent.locals.Covers [⟨.int, 0⟩] := by
    unfold RegisterFile.Covers
    decide
  obtain ⟨values, loaded, agree⟩ := invocation_shapes_agree Setup.queueing_sound
    Interpreter.doubles_settles Callable.doubling_sound truths parentTruths complete covered complete
    covered complete covered
  have isValues : values = [.int 21] := Except.ok.inj (loaded.symm.trans rfl)
  subst isValues
  exact ⟨outcome, answer, result, first, second, third, agree runsFirst runsSecond runsThird,
    Prod.mk.inj isOutcome, isAnswer, Prod.mk.inj isResult⟩

end WorkerMachine
