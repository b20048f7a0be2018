import WorkerMachine.Proofs.Balance.Steps
import WorkerMachine.Proofs.Clearance.Scripts
import WorkerMachine.Proofs.Clearance.Workers
/-!
# Tasks that are accounted for

A task is made with a context that its maker has in hand.  Whoever runs the task or drops it gives the
context back in the end.  A task that is run on the path of its caller leaves a share in the tilt of the
scales, since the unit of the task has been dispatched then.
-/

namespace WorkerMachine

open Balance

open Settling (Active)

variable {program : Program} {base machine : Machine} {thread : ThreadId} {token : Hand}
  {task : Task} {station : Station} {interpreter : Interpreter} {holding : Holding}

theorem Program.Sound.of_declares (sound : program.Sound) {unit : Callable}
    (declared : program.Declares unit) : unit.Sound := by
  obtain ⟨name, package, isPackage, isUnit⟩ := declared
  exact ((sound name package isPackage).2 unit isUnit).2

/-! ## Contributions -/

namespace Response

variable {response : Response}

theorem settle_keeps (response : Response) :
    response.settle.1.returns = response.returns ∧ response.settle.1.staged = response.staged := by
  unfold settle
  dsimp only
  split <;> exact ⟨rfl, rfl⟩

/-- A response with room for the results of its unit takes in every contribution. -/
theorem exists_contribute (sound : response.returns.Sound)
    (staged : response.staged.sizes = response.returns.sizes) (worker : ContextId)
    (outcome : WorkerOutcome) {result : RegisterFile} (sized : result.sizes = response.returns.sizes) :
    ∃ taken completes, response.contribute worker outcome result = (taken, .ok completes) ∧
      taken.returns = response.returns ∧ taken.staged.sizes = response.staged.sizes := by
  obtain ⟨recorded, isRecorded, returns, staged, _, _⟩ :=
    @exists_record (response.enlist worker) sound staged outcome result sized
  obtain ⟨settledReturns, settledStaged⟩ := recorded.settle_keeps
  unfold contribute
  split
  · rw [isRecorded]
    exact ⟨recorded.settle.1, recorded.settle.2, rfl, settledReturns.trans returns,
      (congrArg RegisterFile.sizes settledStaged).trans staged⟩
  · exact ⟨response, false, rfl, rfl, rfl⟩

end Response

/-- The response of a task takes in what the task contributes, and goes on collecting. -/
theorem Machine.Awaits.contribute (awaits : machine.Awaits task) (sound : program.Sound)
    (prepares : program.Prepares task) (worker : ContextId) (outcome : WorkerOutcome)
    {result : RegisterFile} (sized : result.sizes = task.context.results.sizes) :
    (∃ completes, (machine.contribute task.response worker outcome result).1 = .ok completes) ∧
      machine.KeepsCollecting (machine.contribute task.response worker outcome result).2 := by
  obtain ⟨unit, its, ofUnit, response, found, returns, staged⟩ := awaits
  obtain ⟨unit', _, ofUnit', declared, _, _, results⟩ := prepares.ofUnit
  cases ofUnit.symm.trans ofUnit'
  have isResponse : machine.response task.response = response := by
    unfold Machine.response
    rw [found]
    rfl
  obtain ⟨taken, completes, contributed, takenReturns, takenStaged⟩ :=
    @Response.exists_contribute response (returns ▸ (sound.of_declares declared).returns)
      (staged.trans (congrArg Layout.sizes returns.symm)) worker outcome result
      ((sized.trans results).trans (congrArg Layout.sizes returns.symm))
  unfold Machine.contribute
  rw [isResponse, contributed]
  refine ⟨⟨completes, rfl⟩, fun id layout collects => ?_⟩
  obtain ⟨its, isFound, itsReturns, itsStaged⟩ := collects
  by_cases same : id = task.response
  · subst same
    cases found.symm.trans isFound
    have inBounds := (Array.getElem?_eq_some_iff.mp found).1
    refine ⟨taken, ?_, takenReturns.trans itsReturns, takenStaged.trans itsStaged⟩
    rw [Array.getElem?_setIfInBounds_self_of_lt inBounds]
  · refine ⟨its, ?_, itsReturns, itsStaged⟩
    rw [Array.getElem?_setIfInBounds_ne (Ne.symm same)]
    exact isFound

theorem Balance.exchanges_contribute (awaits : machine.Awaits task) (sound : program.Sound)
    (prepares : program.Prepares task) (worker : ContextId) (outcome : WorkerOutcome)
    {result : RegisterFile} (sized : result.sizes = task.context.results.sizes) :
    Exchanges program base machine (machine.contribute task.response worker outcome result).2
      thread token token :=
  exchanges_responses rfl (Nat.le_refl _) rfl rfl rfl rfl
    (awaits.contribute sound prepares worker outcome sized).2 (fun _ => .inl) rfl rfl rfl

/-! ## Running a task -/

theorem startTask_balances (isHeld : token.held task.context.id = some ⟨.runnable, some task⟩)
    {upset : Interruption → Hand → Prop} :
    (Effect.atomically (Machine.startTask task)).Follows (.balancing program base) thread token
      (fun started last => started = .ok .runnable ∧
        last = (token.hold task.context.id (some ⟨.running, some task⟩)).add
          (Happening.tilt (.started task))) upset := by
  refine Effect.follows_accounting fun machine known => ?_
  obtain ⟨_, _, prepares, _⟩ := known.task isHeld rfl
  obtain ⟨moved, exchanges⟩ : _ ∧ Exchanges program base machine _ thread token _ :=
    known.moves isHeld (show ContextState.runnable.canMoveTo .running = true from rfl)
  rw [machine.startTask_of_moves prepares.arena moved]
  exact ⟨_, exchanges.trans (exchanges_record _ (.started task)), rfl, rfl⟩

/-- A task in hand that runs comes to its last state. -/
theorem finish_balances {after : Context} (left : task.context.LeftAs after)
    (isHeld : token.held task.context.id = some ⟨.running, some task⟩) (outcome : WorkerOutcome)
    {upset : Interruption → Hand → Prop} :
    (Effect.modify (Machine.alterArena after.arena fun records =>
        records.finish after.id outcome.lastState)).Follows (.balancing program base) thread token
      (fun _ last => last = token.hold task.context.id (some ⟨outcome.lastState, some task⟩))
      upset := by
  refine Effect.follows_accounting_modify fun machine known => ?_
  obtain ⟨_, _, prepares, _⟩ := known.task isHeld rfl
  have active : Active (machine.state? task.context.id) := .inl (known.state? isHeld)
  rw [left.arena, left.id, prepares.arena]
  exact exchanges_alter ⟨outcome.lastState, some task⟩ isHeld (Arena.finish_altersOnly ..)
    (Arena.state?_finish active) fun its isTask => .inl isTask

/-- The contribution of a task is handed in whose body has ended. -/
theorem endTask_balances (sound : program.Sound) {after : Context} (left : task.context.LeftAs after)
    (isHeld : token.held task.context.id = some holding) (isTask : holding.task? = some task)
    (outcome : Except Interruption WorkerExit) {upset : Interruption → Hand → Prop} :
    (Effect.atomically (Machine.endTask task outcome after)).Follows (.balancing program base) thread
      token (fun accepted last => (∃ completes, accepted = .ok completes) ∧ last = token) upset := by
  refine Effect.follows_accounting fun machine known => ?_
  obtain ⟨_, _, prepares, awaits⟩ := known.task isHeld isTask
  have noted := @exchanges_record program base thread token machine (.ended task outcome after)
  rw [show Happening.tilt (.ended task outcome after) = 0 from rfl, Hand.add_zero] at noted
  have stillAwaits : (machine.record (.ended task outcome after)).Awaits task :=
    (Machine.keepsCollecting_of_same rfl).awaits awaits
  exact ⟨token, noted.trans (exchanges_contribute stillAwaits sound prepares _ _ left.sized),
    (stillAwaits.contribute sound prepares _ _ left.sized).1, rfl⟩

theorem Station.carryOut_balances (sound : program.Sound)
    (isHeld : token.held task.context.id = some ⟨.runnable, some task⟩)
    (body : program.Prepares task →
      ((interpreter station).runOn task.context).Stays (.balancing program base) station.thread
        ((token.hold task.context.id (some ⟨.running, some task⟩)).add
          (Happening.tilt (.started task))) fun answer => task.context.LeftAs answer.2) :
    (station.carryOut interpreter task).Follows (.balancing program base) station.thread token
      (fun _ last => last = (token.hold task.context.id none).add (Happening.tilt (.started task)))
      fun _ _ => False := by
  refine Process.follows_knowing ⟨_, _, _, rfl⟩ (fun machine known => known.prepared isHeld rfl) ?_
  rintro ⟨isNew, prepares⟩
  unfold carryOut
  refine Effect.Follows.followedBy (?_ : Effect.Follows _ _ _ _ (fun _ last => ∃ state,
    last = (token.hold task.context.id (some ⟨state, some task⟩)).add
      (Happening.tilt (.started task))) fun _ _ => False) ?_
  · refine Effect.Follows.bind (startTask_balances isHeld) ?_
    rintro _ _ ⟨rfl, rfl⟩
    refine Effect.Follows.bind (Effect.follows_work (body prepares)) ?_
    rintro ⟨outcome, after⟩ _ ⟨rfl, left⟩
    refine Effect.Follows.bind
      (finish_balances left (by simp) (judge after outcome)) ?_
    rintro _ _ rfl
    refine Effect.Follows.bind
      (endTask_balances sound left (Hand.held_hold_self ..) rfl outcome) ?_
    rintro _ _ ⟨⟨completes, rfl⟩, rfl⟩
    exact ⟨_, by rw [Hand.add_hold, Hand.hold_hold]⟩
  · rintro (_ | _) _ reached
    · exact reached.elim
    · obtain ⟨state, rfl⟩ := reached
      refine (release_balances prepares.arena (by exact Hand.held_hold_self ..) isNew).weaken ?_
      rintro _ _ rfl
      rw [Effect.Reaches, Hand.add_hold, Hand.hold_hold]

/-- A task in hand that has not begun is dropped. -/
theorem dispose_balances (sound : program.Sound)
    (isHeld : token.held task.context.id = some ⟨.runnable, some task⟩) :
    task.dispose.Follows (.balancing program base) thread token fun _ last =>
      last = token.hold task.context.id none := by
  refine Process.follows_knowing ⟨_, _, _, rfl⟩ (fun machine known => known.prepared isHeld rfl) ?_
  rintro ⟨isNew, prepares⟩
  have contributed : (Process.modify fun machine => (Machine.contribute task.response
        task.context.id (.faulted task.droppedFault) task.context.results machine).2).Follows
      (.balancing program base) thread token fun _ last => last = token :=
    Process.follows_accounting_modify fun machine known =>
      exchanges_contribute (known.task isHeld rfl).2.2.2 sound prepares _ _ rfl
  refine Process.Follows.bind contributed ?_
  rintro _ _ rfl
  exact release_balances prepares.arena isHeld isNew

/-! ## Making a task -/

theorem prepareTask_balances {unit : Callable} {worker : Worker} {parent : Context}
    {source locals : RegisterFile} {arguments : List Nat} {response : ResponseId}
    (isOwn : parent.arena = Machine.ownArena) (declared : program.Declares unit)
    (member : worker ∈ unit.workers)
    (seeded : Marshalling.seed worker.locals unit.params source arguments = .ok locals)
    (called : (response, unit.returns) ∈ token.calls) (inCaller : Bool) :
    (prepareTask unit worker parent source arguments response inCaller).Follows
      (.balancing program base) thread token
      (fun task last => (∃ id, task = unit.task worker parent response inCaller locals id) ∧
        token.held task.context.id = none ∧
          last = (token.hold task.context.id (some ⟨.runnable, some task⟩)).add
            (Tallies.tilt { contexts := 1 }))
      fun _ _ => False := by
  have sized : locals.sizes = worker.locals := Marshalling.sizes_seed seeded
  have prepares : ∀ id, program.Prepares (unit.task worker parent response inCaller locals id) :=
    fun id => ⟨isOwn, unit, worker, rfl, declared, member, sized, RegisterFile.sizes_ofSizes _⟩
  unfold prepareTask
  simp only [seeded, Effect.ofAccess, pure_bind]
  refine (registerContext_balances isOwn _).bind ?_
  rintro id _ ⟨isFree, isNew, rfl⟩
  refine Effect.Follows.bind (tally_balances { contexts := 1 } fun _ => rfl) ?_
  rintro _ _ rfl
  refine Effect.Follows.orElseRun_of_never ?_
  have awaits : ∀ machine, Known program base machine
      ((token.hold id (some ⟨.created, none⟩)).add (Tallies.tilt { contexts := 1 })) →
      machine.Awaits (unit.task worker parent response inCaller locals id) :=
    fun machine known => ⟨unit, worker, rfl, known.collects called⟩
  refine Effect.Follows.bind (moveContext_balances isOwn (by exact Hand.held_hold_self ..)
    rfl isNew (prepares id) awaits) ?_
  rintro _ _ ⟨rfl, rfl⟩
  exact ⟨⟨id, rfl⟩, isFree, congrArg (Hand.add · _) (Hand.hold_hold ..)⟩

end WorkerMachine
