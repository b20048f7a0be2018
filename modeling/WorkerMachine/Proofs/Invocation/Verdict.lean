import WorkerMachine.Machine.Runner
import WorkerMachine.Proofs.Registers.Copying
/-!
# What the endings of workers come to

The verdict on an invocation is told from the ways in which its workers end, in the order in which
they end: the first fault, else the first error, else the values of the first worker that returns.
A response that has gathered the contributions of these workers holds exactly this verdict.
-/

namespace WorkerMachine

/-- How the body of a task's worker ended, and the context that it left. -/
structure Ending where
  task : Task
  outcome : Except Interruption WorkerExit
  after : Context

def Task.worker (task : Task) : Worker :=
  (task.context.activity.map Prod.snd).getD default

namespace Ending

/-- The fault of a worker that panics or fails, other than by handing on an error. -/
def fault? (unit : Callable) (worker : Worker) (ending : Ending) : Option Fault :=
  match ending.outcome with
  | .ok _ | .error (.fault (.propagated _)) => none
  | .error (.fault fault) => some fault
  | .error (.panic payload) => some (.workerPanicked unit.name worker.name payload.message)
  | .error .exhausted => some (.workerPanicked unit.name worker.name PanicPayload.other.message)

/-- The error of a worker that leaves one in its slot or hands one on, with one more frame, which is
that of the worker. -/
def raised? (unit : Callable) (worker : Worker) (ending : Ending) : Option ErrorValue :=
  match ending.outcome with
  | .ok _ => ending.after.error.map fun error =>
    error.pushFrame ⟨unit.package, unit.name, worker.name⟩
  | .error (.fault (.propagated error)) =>
    some (error.pushFrame ⟨unit.package, unit.name, worker.name⟩)
  | .error _ => none

def returned? (ending : Ending) : Option RegisterFile :=
  match ending.outcome, ending.after.error with
  | .ok .returned, none => some ending.after.results
  | _, _ => none

/-- What is true of the ending of a worker of a unit, if its body keeps the sizes of the result
registers and stays with its context. -/
structure Proper (unit : Callable) (ending : Ending) : Prop where
  sameId : ending.after.id = ending.task.context.id
  activity : ∃ worker ∈ unit.workers, ending.task.context.activity = some (unit, worker)
  sameActivity : ending.after.activity = ending.task.context.activity
  sized : ending.after.results.sizes = unit.returns.sizes

def worker (ending : Ending) : Worker :=
  ending.task.worker

variable {unit : Callable} {ending : Ending}

theorem Proper.activity_eq (proper : ending.Proper unit) :
    ending.after.activity = some (unit, ending.worker) := by
  obtain ⟨worker, _, active⟩ := proper.activity
  rw [proper.sameActivity, active]
  unfold Ending.worker Task.worker
  rw [active]
  rfl

end Ending

namespace Callable

/-- The values of result registers, or those of fresh ones if there are none. -/
def valuesOf (unit : Callable) (results : Option RegisterFile) : List Value :=
  unit.returns.slots.map fun slot =>
    ((results.getD (.ofSizes unit.returns.sizes)).get? slot).getD default

/-- What an invocation of a unit comes to if its workers end in these ways, in this order. -/
def verdict (unit : Callable) (endings : List Ending) : Except Interruption (List Value) :=
  match endings.findSome? fun ending => ending.fault? unit ending.worker,
    endings.findSome? fun ending => ending.raised? unit ending.worker with
  | some fault, _ => .error (.fault fault)
  | none, some error => .error (.fault (.propagated error))
  | none, none => .ok (unit.valuesOf (endings.findSome? Ending.returned?))

/-- What is staged once these result registers are the first ones that a worker has returned. -/
def stagedFrom (unit : Callable) : Option RegisterFile → RegisterFile
  | some results => (Marshalling.copyReturns unit.returns results unit.returns.indices
      (.ofSizes unit.returns.sizes) unit.returns.indices).1
  | none => .ofSizes unit.returns.sizes

/-- The response of an invocation that has gathered these endings, in this order. -/
def gathered (unit : Callable) (endings : List Ending) : Response where
  returns := unit.returns
  waits := true
  outstanding := unit.workers.length - endings.length
  contributors := (endings.map fun ending => ending.after.id).reverse
  staged := unit.stagedFrom (endings.findSome? Ending.returned?)
  hasValues := (endings.findSome? Ending.returned?).isSome
  error := endings.findSome? fun ending => ending.raised? unit ending.worker
  fault := endings.findSome? fun ending => ending.fault? unit ending.worker
  completions := if endings.length = unit.workers.length then 1 else 0

end Callable

/-! ## Judging -/

/-- The model's judgement is told from the three ways of ending. -/
theorem judge_eq {unit : Callable} {ending : Ending} (proper : ending.Proper unit) :
    judge ending.after ending.outcome =
      match ending.fault? unit ending.worker, ending.raised? unit ending.worker,
        ending.returned? with
      | some fault, _, _ => .faulted fault
      | none, some error, _ => .raised error
      | none, none, some _ => .returned
      | none, none, none => .finished := by
  have active := proper.activity_eq
  have framed : ∀ error, ending.after.addFrame error =
      error.pushFrame ⟨unit.package, unit.name, ending.worker.name⟩ := by
    intro error
    simp only [Context.addFrame, Context.frame?, active, Option.map_some]
  have panicked : ∀ payload, ending.after.panicFault payload =
      .workerPanicked unit.name ending.worker.name payload.message := by
    intro payload
    simp only [Context.panicFault, Context.unitName, Context.workerName, active]
  unfold judge Ending.fault? Ending.raised? Ending.returned?
  cases ending.outcome with
  | ok exit =>
      cases ending.after.error with
      | none =>
          cases exit with
          | returned =>
              rfl
          | halted =>
              rfl
      | some error =>
          simp only [Option.map_some, framed]
  | error interruption =>
      cases interruption with
      | fault fault =>
          cases fault with
          | propagated error =>
              simp only [framed]
          | _ =>
              rfl
      | panic payload =>
          simp only [panicked]
      | exhausted =>
          simp only [panicked]

/-- A worker that has a fault to tell has neither an error nor values to tell. -/
theorem Ending.nothing_else_of_fault {unit : Callable} {ending : Ending} {worker : Worker}
    {fault : Fault} (faulted : ending.fault? unit worker = some fault) :
    ending.raised? unit worker = none ∧ ending.returned? = none := by
  unfold fault? at faulted
  unfold raised? returned?
  cases outcome : ending.outcome with
  | ok exit =>
      rw [outcome] at faulted
      cases faulted
  | error interruption =>
      cases interruption with
      | fault fault =>
          cases fault with
          | propagated error =>
              rw [outcome] at faulted
              cases faulted
          | _ =>
              exact ⟨rfl, rfl⟩
      | panic payload =>
          exact ⟨rfl, rfl⟩
      | exhausted =>
          exact ⟨rfl, rfl⟩

theorem Ending.no_values_of_raised {unit : Callable} {ending : Ending} {worker : Worker}
    {error : ErrorValue} (raised : ending.raised? unit worker = some error) :
    ending.returned? = none := by
  unfold raised? at raised
  unfold returned?
  cases outcome : ending.outcome with
  | ok exit =>
      rw [outcome] at raised
      obtain ⟨left, isLeft, _⟩ := Option.map_eq_some_iff.mp raised
      rw [isLeft]
      cases exit with
      | returned | halted =>
          rfl
  | error interruption =>
      rfl

/-! ## Gathering -/

section Gathering

variable {unit : Callable} {endings : List Ending} {ending : Ending}

theorem findSome?_snoc {Told : Type} (tells : Ending → Option Told) :
    (endings ++ [ending]).findSome? tells = (endings.findSome? tells).or (tells ending) := by
  rw [List.findSome?_append, List.findSome?_singleton]

theorem gathered_snoc (unit : Callable) (endings : List Ending) (ending : Ending) :
    unit.gathered (endings ++ [ending]) =
      { unit.gathered endings with
        outstanding := unit.workers.length - (endings.length + 1)
        contributors := ending.after.id :: (unit.gathered endings).contributors
        staged := unit.stagedFrom ((endings.findSome? Ending.returned?).or ending.returned?)
        hasValues := ((endings.findSome? Ending.returned?).or ending.returned?).isSome
        error := (unit.gathered endings).error.or (ending.raised? unit ending.worker)
        fault := (unit.gathered endings).fault.or (ending.fault? unit ending.worker)
        completions := if endings.length + 1 = unit.workers.length then 1 else 0 } := by
  simp only [Callable.gathered, findSome?_snoc, List.map_append, List.map_cons, List.map_nil,
    List.reverse_append, List.reverse_cons, List.reverse_nil, List.nil_append, List.cons_append,
    List.length_append, List.length_cons, List.length_nil, Nat.zero_add]

/-- The values of a worker that returns are staged unless values have been staged before. -/
theorem stage_gathered (sound : unit.Sound) (endings : List Ending) {results : RegisterFile}
    (id : ContextId)
    (sized : results.sizes = unit.returns.sizes) :
    ((unit.gathered endings).enlist id).stage results =
      ({ (unit.gathered endings).enlist id with
          staged := unit.stagedFrom ((endings.findSome? Ending.returned?).or (some results))
          hasValues := true }, .ok ()) := by
  unfold Response.stage Response.enlist Callable.gathered
  rcases Option.eq_none_or_eq_some (endings.findSome? Ending.returned?) with
    noneStaged | ⟨staged, isStaged⟩
  · obtain ⟨file, copied, _, _⟩ := Marshalling.exists_copyReturns sound.returns sized
      (RegisterFile.sizes_ofSizes unit.returns.sizes)
    simp only [noneStaged, Callable.stagedFrom, Option.isSome_none, Bool.false_eq_true, if_false,
      Option.none_or, copied]
  · simp only [isStaged, Option.isSome_some, if_true, Option.some_or]

/-- Until the outstanding contributions are counted, one more ending is taken over like this. -/
theorem record_gathered (sound : unit.Sound) (proper : ending.Proper unit)
    (fewer : endings.length < unit.workers.length) :
    ((unit.gathered endings).enlist ending.after.id).record
        (judge ending.after ending.outcome) ending.after.results =
      ({ unit.gathered (endings ++ [ending]) with
          outstanding := unit.workers.length - endings.length
          completions := 0 }, .ok ()) := by
  have notComplete : endings.length ≠ unit.workers.length := by omega
  rw [judge_eq proper, gathered_snoc]
  cases faulted : ending.fault? unit ending.worker with
  | some fault =>
      obtain ⟨notRaised, notReturned⟩ := Ending.nothing_else_of_fault faulted
      simp only [Response.record, Response.enlist, Callable.gathered, notRaised, notReturned,
        Option.or_none, notComplete, if_false]
  | none =>
      cases raised : ending.raised? unit ending.worker with
      | some error =>
          have notReturned := Ending.no_values_of_raised raised
          simp only [Response.record, Response.enlist, Callable.gathered, notReturned,
            Option.or_none, notComplete, if_false]
      | none =>
          cases returned : ending.returned? with
          | none =>
              simp only [Response.record, Response.enlist, Callable.gathered, Option.or_none,
                notComplete, if_false]
          | some results =>
              have isAfter : results = ending.after.results := by
                unfold Ending.returned? at returned
                split at returned
                · cases returned
                  rfl
                · cases returned
              subst isAfter
              have staged := stage_gathered sound endings ending.after.id proper.sized
              simp only [Response.record, staged]
              simp only [Response.enlist, Callable.gathered, Option.or_none, Option.or_some,
                Option.isSome_some, notComplete, if_false]

/-- A response takes over the contribution of every further worker, and is complete with the last
one. -/
theorem contribute_gathered (sound : unit.Sound) (proper : ending.Proper unit)
    (isNew : ending.after.id ∉ endings.map fun earlier => earlier.after.id)
    (fewer : endings.length < unit.workers.length) :
    (unit.gathered endings).contribute ending.after.id (judge ending.after ending.outcome)
        ending.after.results =
      (unit.gathered (endings ++ [ending]),
        .ok (decide (endings.length + 1 = unit.workers.length))) := by
  have accepted : (unit.gathered endings).accepts ending.after.id = true := by
    have outstanding : unit.workers.length - endings.length ≠ 0 := by omega
    simpa [Response.accepts, Callable.gathered, outstanding] using isNew
  unfold Response.contribute
  rw [if_pos accepted, record_gathered sound proper fewer, gathered_snoc]
  simp only [Response.settle]
  by_cases isLast : endings.length + 1 = unit.workers.length
  · have noneLeft : unit.workers.length - endings.length - 1 = 0 := by omega
    simp only [noneLeft, isLast, if_true, decide_true, Nat.sub_self, Nat.zero_add]
  · have someLeft : unit.workers.length - endings.length - 1 ≠ 0 := by omega
    have sameLeft : unit.workers.length - (endings.length + 1) =
        unit.workers.length - endings.length - 1 := by omega
    simp only [someLeft, sameLeft, isLast, if_false, decide_false]

theorem openResponse_gathered (unit : Callable) :
    Response.opening unit.returns true unit.workers.length = unit.gathered [] := by
  have someWorker : 0 ≠ unit.workers.length := by
    simp [Callable.workers]
  simp [Response.ofReturns, Response.opening, Callable.gathered, Callable.stagedFrom, someWorker]

end Gathering

/-! ## Telling the verdict -/

section Telling

variable {unit : Callable} {endings : List Ending}

/-- The values that a response without fault and error delivers are those of the first worker that
returned. -/
theorem raise_gathered (sound : unit.Sound) (proper : ∀ ending ∈ endings, ending.Proper unit) :
    ∃ delivered values,
      (unit.gathered endings).deliverInto (.ofSizes unit.returns.sizes) unit.returns.indices =
          (delivered, .ok ()) ∧
        Marshalling.raise unit.returns delivered = .ok values ∧
        values = unit.valuesOf (endings.findSome? Ending.returned?) := by
  have fresh : (RegisterFile.ofSizes unit.returns.sizes).sizes = unit.returns.sizes :=
    RegisterFile.sizes_ofSizes _
  obtain ⟨results, isResults, sized⟩ : ∃ results,
      (endings.findSome? Ending.returned?).getD (.ofSizes unit.returns.sizes) = results ∧
        results.sizes = unit.returns.sizes := by
    refine ⟨_, rfl, ?_⟩
    cases first : endings.findSome? Ending.returned? with
    | none =>
        exact fresh
    | some results =>
        obtain ⟨ending, member, returned⟩ := List.exists_of_findSome?_eq_some first
        unfold Ending.returned? at returned
        split at returned
        · cases returned
          exact (proper ending member).sized
        · cases returned
  obtain ⟨staged, isStaged, stagedSized, stagedContent⟩ : ∃ staged,
      (unit.gathered endings).staged = staged ∧ staged.sizes = unit.returns.sizes ∧
        ∀ slot ∈ unit.returns.slots, staged.cell? slot = results.cell? slot := by
    cases first : endings.findSome? Ending.returned? with
    | none =>
        rw [first] at isResults
        have isStaged : (unit.gathered endings).staged = .ofSizes unit.returns.sizes := by
          simp only [Callable.gathered, first]
          rfl
        refine ⟨_, isStaged, fresh, fun slot _ => ?_⟩
        rw [← isResults, Option.getD_none]
    | some returned =>
        rw [first, Option.getD_some] at isResults
        subst isResults
        obtain ⟨file, copied, fileSized, content⟩ :=
          Marshalling.exists_copyReturns sound.returns sized fresh
        refine ⟨file, ?_, fileSized, content⟩
        simp only [Callable.gathered, Callable.stagedFrom, first, copied]
  obtain ⟨delivered, copied, deliveredSized, deliveredContent⟩ :=
    Marshalling.exists_copyReturns sound.returns stagedSized fresh
  obtain ⟨values, loaded, contents⟩ := Marshalling.exists_loadAll fun slot member => by
    rw [deliveredSized]
    exact sound.returns.inRange slot member
  refine ⟨delivered, values, ?_, loaded, ?_⟩
  · unfold Response.deliverInto
    rw [isStaged]
    exact copied
  · have told : (unit.returns.slots.map fun slot => (results.get? slot).getD default) =
        unit.returns.slots.map fun slot => (delivered.get? slot).getD default := by
      refine List.map_congr_left fun slot member => ?_
      unfold RegisterFile.get?
      rw [deliveredContent slot member, stagedContent slot member]
    unfold Callable.valuesOf
    rw [isResults, told]
    have unwrapped := congrArg (List.map fun value => value.getD default) contents
    rw [List.map_map, List.map_map] at unwrapped
    exact (List.map_id values).symm.trans unwrapped

end Telling

end WorkerMachine
