import WorkerMachine.Proofs.Arguments.Faults
/-!
# Steps that keep faults about arguments away

Scheduling tasks, waiting for them and gathering what they have come to brings no fault about the
kinds of arguments onto a machine, and is not interrupted by one, as long as the tasks that are run do
not either.
-/

namespace WorkerMachine

variable {Answer First Second : Type}

/-! ## Processes -/

section Processes

variable {goal : Answer → Prop}

theorem Process.matched_atomically {operation : Machine → Answer × Machine}
    (kept : ∀ machine : Machine, machine.Matched →
      (operation machine).2.Matched ∧ goal (operation machine).1) :
    (atomically operation).Keeps Machine.Matched goal :=
  stays_atomically fun machine _ matched _ => ⟨trivial, kept machine matched⟩

theorem Process.matched_modify {update : Machine → Machine}
    (kept : ∀ machine : Machine, machine.Matched → (update machine).Matched) :
    (modify update).Keeps Machine.Matched fun _ => True :=
  stays_modify (fun machine _ matched _ => ⟨trivial, kept machine matched⟩) trivial

end Processes

/-! ## Effects -/

namespace Effect

variable {goal : Answer → Prop}

theorem matches_pure {answer : Answer} (reached : goal answer) :
    (pure answer : Effect Answer).Matches goal :=
  reached

theorem matches_throw {interruption : Interruption} (matched : interruption.Matched) :
    (throw interruption : Effect Answer).Matches goal :=
  matched

theorem matches_mk {outcome : Except Interruption Answer} (matched : EndsMatched outcome)
    (reached : ∀ answer, outcome = .ok answer → goal answer) :
    Matches (ExceptT.mk (pure outcome) : Effect Answer) goal := by
  cases outcome with
  | ok answer => exact reached answer rfl
  | error interruption => exact matched interruption rfl

theorem matches_ofExcept {outcome : Except Fault Answer} (matched : Matched outcome)
    (reached : ∀ answer, outcome = .ok answer → goal answer) : (ofExcept outcome).Matches goal :=
  follows_ofExcept reached fun fault isFault => Interruption.matched_fault (matched fault isFault)

theorem matches_ofAccess (outcome : Except Overrun Answer) :
    (ofAccess outcome).Matches fun _ => True :=
  follows_ofAccess (fun _ _ => trivial) fun _ _ => Interruption.matched_panic _

theorem Matches.bind {effect : Effect First} {follow : First → Effect Second}
    {between : First → Prop} {goal : Second → Prop} (first : effect.Matches between)
    (second : ∀ answer, between answer → (follow answer).Matches goal) :
    (effect >>= follow).Matches goal :=
  Follows.bind first fun answer _ reached => second answer reached

theorem matches_work {work : Work Answer} (keeps : work.Keeps Machine.Matched goal) :
    (liftM work : Effect Answer).Matches goal :=
  follows_work (Process.Follows.weaken keeps fun _ _ reached => reached.2)

theorem matches_atomically {operation : Machine → Answer × Machine}
    (kept : ∀ machine : Machine, machine.Matched →
      (operation machine).2.Matched ∧ goal (operation machine).1) :
    (atomically operation).Matches goal :=
  matches_work (Process.matched_atomically kept)

theorem matches_alter {operation : Machine → Answer × Machine}
    (kept : ∀ machine : Machine, machine.Matched → (operation machine).2.Matched) :
    (atomically operation).Matches fun _ => True :=
  matches_atomically fun machine matched => ⟨kept machine matched, trivial⟩

theorem matches_modify {update : Machine → Machine}
    (kept : ∀ machine : Machine, machine.Matched → (update machine).Matched) :
    (modify update).Matches fun _ => True :=
  matches_work (Process.matched_modify kept)

theorem matches_read {view : Machine → Answer}
    (reached : ∀ machine : Machine, machine.Matched → goal (view machine)) :
    (read view).Matches goal :=
  matches_work (Process.stays_read fun machine _ matched _ => reached machine matched)

theorem matches_waitUntil (ready : Machine → Bool) :
    (waitUntil ready).Matches fun _ => True :=
  follows_waitUntil (fun _ _ _ _ _ => trivial) fun _ _ matched _ _ => ⟨(), matched, trivial⟩

theorem matches_pause (milliseconds : Nat) : (pause milliseconds).Matches fun _ => True :=
  follows_pause trivial

theorem Matches.followedBy {effect : Effect Answer} {cleanup : Work Unit}
    (first : effect.Matches goal) (second : cleanup.Keeps Machine.Matched fun _ => True) :
    (effect.followedBy cleanup).Matches goal :=
  Follows.followedBy first fun _ _ reached => Process.Follows.weaken second fun _ _ _ => reached

theorem Matches.orElseRun {effect : Effect Answer} {cleanup : Work Unit}
    (first : effect.Matches goal) (second : cleanup.Keeps Machine.Matched fun _ => True) :
    (effect.orElseRun cleanup).Matches goal :=
  Follows.orElseRun first fun _ _ reached => Process.Follows.weaken second fun _ _ _ => reached

theorem Matches.attempt {effect : Effect Answer} (matching : effect.Matches fun _ => True) :
    effect.attempt.Matches Matched := by
  refine Follows.attempt (Follows.weaken matching (fun answer _ _ => matched_ok answer) ?_)
  intro interruption _ matched
  cases interruption with
  | fault fault => exact matched_error (matched fault rfl)
  | panic payload => exact matched
  | exhausted => exact matched

/-- The work of an effect, with what its answers and its interruptions reach. -/
theorem Matches.run {effect : Effect Answer} (matching : effect.Matches goal) :
    effect.run.Keeps Machine.Matched fun outcome =>
      EndsMatched outcome ∧ ∀ answer, outcome = .ok answer → goal answer := by
  refine Process.Follows.weaken matching fun outcome _ reached => ⟨rfl, ?_⟩
  cases outcome with
  | ok answer =>
      refine ⟨nofun, fun other same => ?_⟩
      cases same
      exact reached
  | error interruption =>
      refine ⟨fun other same => ?_, nofun⟩
      cases same
      exact reached

/-- The work of an effect, with what its interruptions reach. -/
theorem Matches.ends {effect : Effect Answer} (matching : effect.Matches goal) :
    effect.run.Keeps Machine.Matched EndsMatched :=
  matching.run.weaken fun _ reached => reached.1

end Effect

/-! ## Routines -/

namespace Routine

theorem matches_pure (answer : Answer) : (pure answer : Routine Answer).Matches :=
  fun _ => trivial

theorem matches_throw {interruption : Interruption} (matched : interruption.Matched) :
    (throw interruption : Routine Answer).Matches :=
  fun _ => matched

theorem matches_get : (get : Routine Context).Matches :=
  fun _ => trivial

theorem matches_set (after : Context) : (set after : Routine PUnit).Matches :=
  fun _ => trivial

theorem matches_modify (change : Context → Context) : (modify change : Routine PUnit).Matches :=
  fun _ => trivial

theorem Matches.bind {routine : Routine First} {follow : First → Routine Second}
    (first : routine.Matches) (second : ∀ answer, (follow answer).Matches) :
    (routine >>= follow).Matches :=
  fun context => Follows.bind (first context) fun answer after _ _ => second answer after

theorem matches_effect {effect : Effect Answer} (matching : effect.Matches fun _ => True) :
    (liftM effect : Routine Answer).Matches :=
  fun _ => follows_effect matching

theorem Matches.of_effect {effect : Effect First} {goal : First → Prop}
    {follow : First → Routine Second} (first : effect.Matches goal)
    (second : ∀ answer, goal answer → (follow answer).Matches) :
    ((liftM effect : Routine First) >>= follow).Matches := by
  intro context
  have lifted : (liftM effect : Routine First).Follows (.keeping Unit Machine.Matched) () context ()
      (fun answer _ _ => goal answer) fun interruption _ _ => interruption.Matched :=
    follows_effect first
  exact lifted.bind fun answer after _ reached => second answer reached after

theorem Matches.of_work {work : Work First} {goal : First → Prop}
    {follow : First → Routine Second} (first : work.Keeps Machine.Matched goal)
    (second : ∀ answer, goal answer → (follow answer).Matches) :
    ((liftM work : Routine First) >>= follow).Matches := by
  intro context
  have lifted : (liftM work : Routine First).Follows (.keeping Unit Machine.Matched) () context ()
      (fun answer _ _ => goal answer) fun interruption _ _ => interruption.Matched :=
    follows_work (Process.Follows.weaken first fun _ _ reached => reached.2)
  exact lifted.bind fun answer after _ reached => second answer reached after

/-- The work of a routine, with what its interruptions reach. -/
theorem Matches.run {routine : Routine Answer} (matching : routine.Matches) (context : Context) :
    (routine.runOn context).Keeps Machine.Matched fun answer => EndsMatched answer.1 := by
  refine Process.Follows.weaken (matching context) ?_
  rintro ⟨outcome, after⟩ _ reached
  cases outcome with
  | ok answer => exact ⟨rfl, nofun⟩
  | error interruption =>
      refine ⟨rfl, fun other same => ?_⟩
      cases same
      exact reached

/-- An attempt turns faults into answers, so that nothing but panics interrupts it. -/
theorem Matches.run_attempt {routine : Routine Answer} (matching : routine.Matches)
    (context : Context) :
    (routine.attempt.runOn context).Keeps Machine.Matched fun answer => EndsMatched answer.1 := by
  rw [runOn_attempt]
  refine Process.Stays.bind (matching.run context) ?_
  rintro ⟨outcome, after⟩ matched
  rcases outcome with (fault | _ | _) | answer
  · exact Process.stays_done nofun
  · exact Process.stays_done fun interruption same => matched interruption (by cases same; rfl)
  · exact Process.stays_done fun interruption same => matched interruption (by cases same; rfl)
  · exact Process.stays_done nofun

end Routine

/-! ## Single steps -/

theorem Context.release_matched (context : Context) :
    context.release.Keeps Machine.Matched fun _ => True :=
  Process.matched_modify fun _ matched => matched.of_same rfl rfl

theorem registerContext_matches (arena : ArenaKey) (record : ContextRecord) :
    (registerContext arena record).Matches fun _ => True :=
  Effect.matches_alter fun _ matched => matched.of_same rfl rfl

theorem moveContext_matches (arena : ArenaKey) (id : ContextId) (next : ContextState) :
    (moveContext arena id next).Matches Matched :=
  Effect.matches_atomically fun _ matched =>
    ⟨matched.of_same rfl rfl, Arena.matched_transition _ _ _⟩

theorem tally_matches (count : Tallies → Tallies) : (tally count).Matches fun _ => True :=
  Effect.matches_modify fun _ matched => matched.of_same rfl rfl

theorem resumeParent_matched (parent : ContextId) :
    (resumeParent parent).Keeps Machine.Matched fun _ => True :=
  Process.matched_modify fun _ matched => matched.of_same rfl rfl

theorem contributeTo_matches (response : ResponseId) (worker : ContextId) {outcome : WorkerOutcome}
    (matched : outcome.Matched) (result : RegisterFile) :
    (contributeTo response worker outcome result).Matches fun _ => True := by
  have contributed : (Effect.atomically
      (Machine.contribute response worker outcome result)).Matches fun _ => True :=
    Effect.matches_alter fun _ held => held.contribute matched response worker result
  exact contributed.bind fun _ _ => Effect.matches_ofAccess _

theorem Task.dispose_matched (task : Task) :
    task.dispose.Keeps Machine.Matched fun _ => True := by
  have dropped : (WorkerOutcome.faulted task.droppedFault).Matched := by
    intro fault isFault
    cases isFault
    rfl
  have contributed : (Process.modify fun machine : Machine => (machine.contribute task.response
      task.context.id (.faulted task.droppedFault) task.context.results).2).Keeps Machine.Matched
        fun _ => True :=
    Process.matched_modify fun _ held => held.contribute dropped _ _ _
  exact Process.Stays.bind contributed fun _ _ => task.context.release_matched

theorem Task.dispose_matches (task : Task) :
    (liftM task.dispose : Effect Unit).Matches fun _ => True :=
  Effect.matches_work task.dispose_matched

/-! ## Scheduling and waiting -/

/-- Tasks that are run on a station bring no fault about the kinds of arguments. -/
def Station.RunsMatched (station : Station) : Prop :=
  ∀ task, (station.runTask task).Matches fun _ => True

namespace Station

variable {station : Station} (tasks : station.RunsMatched)

include tasks

theorem runScheduled_matches (task : Task) : (station.runScheduled task).Matches fun _ => True :=
  (tasks task).bind fun _ _ => Effect.matches_modify fun _ matched => matched.of_same rfl rfl

theorem schedule_matches (task : Task) : (station.schedule task).Matches fun _ => True := by
  have alters : ∀ {update : Machine → Machine},
      (∀ machine, (update machine).responses = machine.responses ∧
        (update machine).gate = machine.gate) → (Effect.modify update).Matches fun _ => True :=
    fun spared => Effect.matches_modify fun machine matched =>
      matched.of_same (spared machine).1 (spared machine).2
  unfold schedule
  split
  · refine Effect.Matches.bind (alters fun _ => ⟨rfl, rfl⟩) fun _ _ => ?_
    split
    · exact runScheduled_matches tasks task
    · exact alters fun _ => ⟨rfl, rfl⟩
    · exact alters fun _ => ⟨rfl, rfl⟩
    · exact task.dispose_matches
    · exact task.dispose_matches.bind fun _ _ =>
        Effect.matches_throw (Interruption.matched_fault rfl)
  · split
    · refine Effect.Matches.bind (alters fun _ => ⟨rfl, rfl⟩) fun _ _ => ?_
      exact task.dispose_matches.bind fun _ _ =>
        Effect.matches_throw (Interruption.matched_panic _)
    · exact task.dispose_matches.bind fun _ _ =>
        Effect.matches_throw (Interruption.matched_fault rfl)
    · exact alters fun _ => ⟨rfl, rfl⟩
  · split
    · exact Effect.Matches.bind (alters fun _ => ⟨rfl, rfl⟩) fun _ _ =>
        Effect.matches_throw (Interruption.matched_panic _)
    · exact alters fun _ => ⟨rfl, rfl⟩

theorem runInCaller_matches (task : Task) : (station.runInCaller task).Matches fun _ => True := by
  unfold runInCaller
  refine (tasks task).bind fun _ _ => ?_
  split
  · refine Effect.Matches.bind (Effect.matches_modify fun _ matched => ?_) fun _ _ =>
      Effect.matches_pure trivial
    exact matched.of_same rfl rfl
  · exact Effect.matches_pure trivial
  · exact Effect.matches_pure trivial

theorem drain_matches (newest : Bool) (bound : Nat) :
    (station.drain newest bound).Matches fun _ => True := by
  induction bound with
  | zero => exact Effect.matches_waitUntil _
  | succ bound inductionHypothesis =>
      have taken : (Effect.atomically (Machine.dequeue newest)).Matches fun _ => True := by
        refine Effect.matches_alter fun machine matched => ?_
        unfold Machine.dequeue
        split
        · exact matched.of_same rfl rfl
        · exact matched.of_same rfl rfl
      unfold drain
      refine taken.bind fun next _ => ?_
      cases next with
      | none => exact Effect.matches_pure trivial
      | some task => exact (runScheduled_matches tasks task).bind fun _ _ => inductionHypothesis

theorem park_matches (response : ResponseId) : (station.park response).Matches fun _ => True := by
  have drained : station.drainQueue.Matches fun _ => True := by
    unfold drainQueue
    split
    · exact drain_matches tasks _ _
    · exact Effect.matches_pure trivial
    · exact Effect.matches_pure trivial
  have looked : (Effect.read fun machine : Machine =>
      (machine.response response).outstanding).Matches fun _ => True :=
    Effect.matches_read fun _ _ => trivial
  unfold park
  split
  · refine looked.bind fun outstanding _ => ?_
    have written : (Effect.modify (Machine.write (.parked outstanding))).Matches fun _ => True :=
      Effect.matches_modify fun _ matched => matched.of_same rfl rfl
    refine written.bind fun _ _ => ?_
    exact drained.bind fun _ _ => Effect.matches_waitUntil _
  · exact Effect.matches_waitUntil _
  · exact Effect.matches_waitUntil _

end Station

/-! ## Tasks -/

/-- A task brings no fault about the kinds of arguments if the body of its worker does not. -/
theorem Station.carryOut_matches {station : Station} {interpreter : Interpreter}
    (bodies : (interpreter station).Matches) (task : Task) :
    (station.carryOut interpreter task).Matches fun _ => True := by
  have started : (Effect.atomically (Machine.startTask task)).Matches Matched :=
    Effect.matches_atomically fun _ matched => matched.startTask task
  unfold carryOut
  refine Effect.Matches.followedBy ?_ task.context.release_matched
  refine started.bind fun outcome matched => ?_
  cases outcome with
  | error fault =>
      have broken : (WorkerOutcome.faulted fault).Matched := by
        intro other same
        cases same
        exact matched fault rfl
      exact (contributeTo_matches _ _ broken _).bind fun _ _ => Effect.matches_pure trivial
  | ok state =>
      refine (Effect.matches_work (bodies.run task.context)).bind fun answer ended => ?_
      obtain ⟨outcome, after⟩ := answer
      have finished : (Effect.modify (Machine.alterArena after.arena fun records =>
          records.finish after.id (judge after outcome).lastState)).Matches fun _ => True :=
        Effect.matches_modify fun _ held => held.of_same rfl rfl
      have contributed : (Effect.atomically (Machine.endTask task outcome after)).Matches
          fun _ => True := by
        refine Effect.matches_alter fun machine held => ?_
        have recorded : (machine.record (.ended task outcome after)).Matched :=
          held.of_same rfl rfl
        exact recorded.contribute (matched_judge after ended) _ _ _
      refine finished.bind fun _ _ => ?_
      refine contributed.bind fun accepted _ => ?_
      exact (Effect.matches_ofAccess accepted).bind fun _ _ => Effect.matches_pure trivial

end WorkerMachine
