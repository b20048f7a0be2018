import WorkerMachine.Proofs.Gate.Conformance
import WorkerMachine.Proofs.Machine.Hosts
import WorkerMachine.Proofs.Machine.Inits
/-!
# Whoever is held up is registered

A thread announces that it waits for a package before it enters the cell of the package, and only
the thread itself withdraws this, once it has entered.  So a thread that is held up in front of a
cell is registered as waiting for its package, whatever the other threads do.
-/

namespace WorkerMachine

/-- A cell is taken over only by threads that are registered as waiting for its package. -/
def Gate.TakenByRegistered (gate later : Gate) : Prop :=
  ∀ package thread, later.runner? package = some thread →
    gate.runner? package = some thread ∨ gate.waits.get? thread = some package

/-- The discipline of threads that are registered as they wait.  The token of a thread is the
package that it waits for. -/
def Discipline.registering : Discipline ThreadId Machine (Option String) where
  fits := fun machine hands => ∀ thread, machine.gate.waits.get? thread = hands thread
  permits := fun machine later => machine.gate.TakenByRegistered later.gate
  excuses := fun _ _ _ => True
  permits_refl := fun _ _ _ runs => .inl runs

theorem Discipline.registering_tolerates (thread : ThreadId) (token : Option String) :
    Discipline.registering.Tolerates thread token where
  tolerates := by
    intro machine later hands fits _ _ sameGate
    refine ⟨fun package runner runs => ?_, fun other => ?_⟩
    · rw [sameGate] at runs
      exact .inl runs
    · rw [sameGate]
      exact fits other
  excuses := fun _ _ _ _ => trivial

/-- The only phase in which a thread takes a cell over is the one in which it enters the cell. -/
theorem Gate.runner?_advance {gate : Gate} {thread runner : ThreadId} {package asked : String}
    {descends : ContextId → Bool} {phase : GatePhase}
    (runs : (gate.advance thread package descends phase).2.runner? asked = some runner) :
    gate.runner? asked = some runner ∨
      phase = .enterCell ∧ asked = package ∧ runner = thread := by
  cases phase with
  | openCell =>
    simp only [Gate.advance] at runs
    split at runs
    · exact .inl runs
    · by_cases same : package = asked
      · subst same
        rw [gate.runner?_setCell_untouched] at runs
        cases runs
      · rw [gate.runner?_setCell_of_ne same] at runs
        exact .inl runs
  | enterCell =>
    simp only [Gate.advance] at runs
    split at runs
    · exact .inl runs
    · by_cases same : package = asked
      · subst same
        rw [gate.runner?_setCell_running] at runs
        exact .inr ⟨rfl, rfl, (Option.some.inj runs).symm⟩
      · rw [gate.runner?_setCell_of_ne same] at runs
        exact .inl runs
  | findHolder held turns =>
    cases turns with
    | zero => exact .inl runs
    | succ turns =>
      simp only [Gate.advance] at runs
      split at runs
      · exact .inl runs
      · split at runs
        · exact .inl runs
        · exact .inl runs
  | judgeMark mark =>
    simp only [Gate.advance] at runs
    split at runs
    · exact .inl runs
    · split at runs
      · exact .inl runs
      · exact .inl runs
  | lookForMark | lookForOutcome | findWait _ _ =>
    simp only [Gate.advance] at runs
    split at runs
    · exact .inl runs
    · exact .inl runs
  | announceWait | countWaits | refuse | beginInit | leave _ | answered _ => exact .inl runs

namespace Station

variable {station : Station}

/-- A thread that goes through phases of a passage is registered in those in which it waits. -/
theorem advancePhases_registers (package : String) (caller : ContextId) (bound : Nat)
    (phase : GatePhase) :
    (station.advancePhases package caller bound phase).Follows .registering station.thread
      (awaited? (afterPhase package [] phase)) fun last token =>
        token = awaited? (afterPhase package [] last) := by
  induction bound generalizing phase with
  | zero => rfl
  | succ bound inductionHypothesis =>
    cases answered : phase.answer? with
    | some answer =>
      cases phase <;> cases answered
      rfl
    | none =>
      rw [station.advancePhases_succ package caller bound answered,
        afterPhase_of_unanswered answered]
      intro machine hands fits holding
      refine ⟨fun _ => ?_, fun _ => trivial⟩
      beta_reduce
      generalize (fun context : ContextId =>
        ((machine.arena Machine.ownArena).ancestry caller).contains context) = descent
      have changed := @advance_waits station.thread machine.gate package phase descent [] answered nofun
      obtain ⟨others, own⟩ := changed
      have registered := (fits station.thread).trans holding
      refine ⟨fun asked runner runs => ?_, _, fun other => ?_, inductionHypothesis _⟩
      · obtain ranBefore | ⟨rfl, rfl, rfl⟩ := Gate.runner?_advance runs
        · exact .inl ranBefore
        · exact .inr registered
      · by_cases isThread : other = station.thread
        · subst isThread
          rw [Function.update_self]
          exact own registered
        · rw [Function.update_of_ne isThread]
          exact (others other (Ne.symm isThread)).trans (fits other)

/-- A thread that has passed a gate waits no longer. -/
theorem passGate_registers (package : String) (caller : ContextId) :
    (station.passGate package caller).Follows .registering station.thread none
      fun last token => (∃ answer, last = .answered answer) ∧ token = none := by
  have passed : (station.passGate package caller).Follows .registering station.thread none
      fun last token => token = awaited? (afterPhase package [] last) := by
    refine Process.Follows.bind (advancePhases_registers package caller _ .lookForMark) ?_
    rintro middle _ rfl
    exact advancePhases_registers package caller _ middle
  refine (passed.endsOnly (station.passGate_endsOnly package caller)).weaken ?_
  rintro _ _ ⟨⟨answer, rfl⟩, rfl⟩
  refine ⟨⟨answer, rfl⟩, ?_⟩
  cases answer <;> rfl

section Inits

variable (tasks : station.TasksStay .registering station.thread none)

/-- A change of the gate by a thread that waits for nothing, which takes no cell over and leaves the
waits of the others alone. -/
theorem registering_modify (change : Gate → Gate)
    (waits : ∀ gate : Gate, gate.waits.get? station.thread = none →
      ∀ other, (change gate).waits.get? other = gate.waits.get? other)
    (cells : ∀ (gate : Gate) asked runner, (change gate).runner? asked = some runner →
      gate.runner? asked = some runner) :
    (Process.modify fun machine : Machine => { machine with gate := change machine.gate }).Stays
      .registering station.thread none fun _ => True := by
  refine Process.stays_modify (fun machine hands fits holding => ⟨?_, fun other => ?_⟩) trivial
  · exact fun asked runner runs => .inl (cells machine.gate asked runner runs)
  · exact (waits machine.gate ((fits station.thread).trans holding) other).trans (fits other)

theorem setCell_registers (package : String) {cell : InitCell}
    (unowned : ∀ gate : Gate, (gate.setCell package cell).runner? package = none) :
    (Process.modify fun machine : Machine =>
      { machine with gate := machine.gate.setCell package cell }).Stays
      .registering station.thread none fun _ => True := by
  refine registering_modify (fun gate => gate.setCell package cell) (fun _ _ _ => rfl)
    fun gate asked runner runs => ?_
  by_cases same : package = asked
  · subst same
    rw [unowned gate] at runs
    cases runs
  · rwa [gate.runner?_setCell_of_ne same] at runs

theorem openInit_registers (package : Package) (parent : Context) :
    (station.openInit package parent).Stays .registering station.thread none fun _ => True := by
  have tolerance := (Discipline.registering_tolerates station.thread none).mild
  refine Process.Stays.bind (Process.tolerated_modify tolerance fun _ =>
    Machine.mild_of_same rfl rfl rfl rfl rfl rfl) fun _ _ => ?_
  refine Process.Stays.bind (Process.tolerated_atomically tolerance fun machine =>
    machine.mild_inArena _ fun arena => arena.register_ages _) fun id _ => ?_
  have called : (Process.modify (Machine.callInit package.name ⟨id, station.thread⟩)).Stays
      .registering station.thread none fun _ => True :=
    Process.stays_modify (fun _ _ fits _ => ⟨fun _ _ runs => .inl runs, fits⟩) trivial
  exact called.bind fun _ _ => Process.stays_done trivial

theorem closeInit_registers (package : Package) (outcome : Except Interruption Unit) :
    (station.closeInit package outcome).Stays .registering station.thread none fun _ => True := by
  have settled : ∀ outcome, (station.settleInit package outcome).run.Stays .registering
      station.thread none fun _ => True := by
    intro outcome
    rw [settleInit_eq]
    refine Process.Stays.bind (setCell_registers package.name fun gate =>
      gate.runner?_setCell_settled package.name outcome) fun _ _ => ?_
    refine Process.Stays.bind (registering_modify (fun gate => gate.withdraw station.thread)
      (fun gate unregistered other => ?_) fun _ _ _ runs => runs) fun _ _ =>
        Process.stays_done trivial
    unfold Gate.withdraw
    by_cases isThread : station.thread = other
    · rw [← isThread, Table.get?_erase_self, unregistered]
    · rw [Table.get?_erase, if_neg isThread]
  have givenBack : ∀ interruption : Interruption, (Process.bind (Process.modify fun machine : Machine =>
      { machine with gate := machine.gate.setCell package.name .untouched }) fun _ =>
        .done (.error interruption : Except Interruption Unit)).Stays .registering station.thread
        none fun _ => True :=
    fun _ => Process.Stays.bind (setCell_registers package.name fun gate =>
      gate.runner?_setCell_untouched package.name) fun _ _ => Process.stays_done trivial
  rcases outcome with (_ | _ | _) | _
  · exact settled _
  · exact givenBack _
  · exact givenBack _
  · exact settled _

include tasks

theorem runInit_registers (package : Package) (parent : Context) :
    (station.runInit package parent).run.Stays .registering station.thread none fun _ => True := by
  have tolerance := Discipline.registering_tolerates station.thread none
  cases isInit : package.init with
  | none =>
    unfold runInit
    rw [isInit]
    exact (resolvePending_stays tolerance package).run.weaken fun _ _ => trivial
  | some unit =>
    rw [runInit_eq isInit]
    refine Process.Stays.bind (openInit_registers package parent) fun context _ => ?_
    have attempted := (callRegisters_stays tolerance.mild tasks unit [] [] context).attempt
    refine Process.Stays.bind (attempted.run.weaken fun _ _ => trivial) fun called _ => ?_
    have finished : (station.finishInit package called).Stays .registering station.thread none
        fun _ => True := by
      unfold finishInit
      refine Effect.Stays.bind (Effect.stays_mk fun _ _ => trivial) fun invoked _ => ?_
      refine Effect.Stays.bind (Effect.stays_work (registering_modify
        (fun gate => gate.unmark package.name) (fun _ _ _ => rfl) fun _ _ _ runs => runs)) fun _ _ => ?_
      refine Effect.Stays.bind (Effect.stays_ofExcept fun _ _ => trivial) fun _ _ => ?_
      exact resolvePending_stays tolerance package
    have closed := finished.followedBy (release_stays tolerance.mild context)
    exact closed.run.weaken fun _ _ => trivial

/-- A thread that waits for nothing when it comes to a gate waits for nothing behind it. -/
theorem ensureInitialized_registers :
    station.InitsStay .registering station.thread none := by
  intro package caller
  have passed : (station.ensureInitialized package caller).run.Stays .registering station.thread
      none fun _ => True := by
    rw [ensureInitialized_eq]
    refine Process.Follows.bind (passGate_registers package.name caller.id) ?_
    rintro _ _ ⟨⟨answer, rfl⟩, rfl⟩
    cases answer with
    | outcome outcome =>
      have answered : (Effect.ofExcept outcome).Stays .registering station.thread none
          fun _ => True :=
        Effect.stays_ofExcept fun _ _ => trivial
      exact answered.run.weaken fun _ _ => trivial
    | claimed =>
      exact Process.Stays.bind (runInit_registers tasks package caller) fun outcome _ =>
        closeInit_registers package outcome
  refine Process.Follows.weaken passed ?_
  rintro (_ | _) last reached
  · exact reached.1
  · exact reached

end Inits

end Station

section Crowds

variable {Answer : Type} {setup : Setup} {interpreter : Interpreter} {depth : Nat}
  {crowd later : Crowd ThreadId Machine (Option Answer)}

/-- A thread is held up in front of the cell of a package: it is about to enter the cell, and the
init of the package is running. -/
def Crowd.HeldUpAt (crowd : Crowd ThreadId Machine Answer) (thread : ThreadId)
    (package : String) : Prop :=
  crowd.state.gate.isRunning package = true ∧
    ∃ (station : Station) (caller : ContextId) (bound : Nat) (follow : GatePhase → Work Answer),
      station.thread = thread ∧ crowd.process thread =
        some ((station.advancePhases package caller (bound + 1) .enterCell).bind follow)

/-- Threads that keep to their stations are registered as they wait. -/
theorem Crowd.registering_of_keepsTo (keeps : interpreter.KeepsToStation)
    (untouched : crowd.state.gate = {})
    (hosts : ∀ thread process, crowd.process thread = some process →
      Work.KeepsTo (setup.station interpreter thread depth) process) :
    Crowd.Welcoming .registering none (fun _ _ _ => True)
        (setup.Starts interpreter depth : Arrivals ThreadId Machine (Option Answer)) ∧
      crowd.Orderly .registering none fun _ _ _ => True := by
  have tolerance := fun thread => Discipline.registering_tolerates thread none
  have inits : ∀ thread depth, (setup.station interpreter thread depth).TasksStay .registering
      thread none → (setup.station interpreter thread depth).InitsStay .registering thread none := by
    intro thread depth tasks
    have registers := @Station.ensureInitialized_registers (setup.station interpreter thread depth)
    rw [setup.thread_station] at registers
    exact registers tasks
  have stores : ∀ thread, Discipline.registering.StoresStay thread none :=
    fun thread slot value => storeGlobal_stays slot value fun _ _ _ fits _ _ =>
      ⟨fun _ _ runs => .inl runs, fits⟩
  have tasks : ∀ thread, (setup.station interpreter thread depth).TasksStay .registering thread
      none := by
    intro thread
    refine keeps.tasks_stay setup thread (· = none) ?_ ?_ ?_ depth none rfl
    · rintro _ rfl
      exact tolerance thread
    · rintro depth tasks _ rfl
      exact inits thread depth (tasks none rfl)
    · rintro _ rfl
      exact stores thread
  refine ⟨Setup.starts_welcoming_mild (fun thread => (tolerance thread).mild) tasks,
    fun _ => none, ?_, ?_, fun _ _ => rfl⟩
  · intro thread
    rw [untouched]
    rfl
  · intro thread process holds
    exact Process.Follows.weaken (hosts thread process holds .registering thread none
      (tolerance thread) (tasks thread) (inits thread depth (tasks thread)) (stores thread))
      fun _ _ _ => trivial

/-- A thread that is held up in front of the cell of a package is registered as waiting for the
package, so that it is blocked there as far as the gate can tell.  Otherwise it could take the cell
over unregistered as soon as the init were given up. -/
theorem Crowd.blockedAt_of_heldUp (keeps : interpreter.KeepsToStation)
    (untouched : crowd.state.gate = {})
    (hosts : ∀ thread process, crowd.process thread = some process →
      Work.KeepsTo (setup.station interpreter thread depth) process)
    (leads : crowd.Leads (setup.Starts interpreter depth) later) {thread : ThreadId}
    {package : String} (heldUp : later.HeldUpAt thread package) :
    later.BlockedAt thread package := by
  obtain ⟨isRunning, station, caller, bound, follow, rfl, entering⟩ := heldUp
  obtain ⟨welcoming, orderly⟩ := Crowd.registering_of_keepsTo keeps untouched hosts
  obtain ⟨hands, orderlyWith⟩ := orderly.leads welcoming leads
  rw [station.advancePhases_succ package caller bound rfl] at entering
  refine ⟨⟨_, _, _, entering, ?_⟩, ?_⟩
  · simp only [Gate.ready, isRunning, Bool.not_true]
  · -- The same thread, had the init just been given up.
    let givenUp : Machine := { later.state with gate := later.state.gate.setCell package .untouched }
    have vacant : givenUp.gate.runner? package = none :=
      later.state.gate.runner?_setCell_untouched package
    have isReady : givenUp.gate.ready package .enterCell = true := by
      simp only [Gate.ready, Gate.isRunning_eq, vacant, Option.isSome_none, Bool.not_false]
    have unsettled : givenUp.gate.outcome? package = none := by
      unfold Gate.outcome?
      rw [show givenUp.gate.cells.get? package = some .untouched from Table.get?_insert_self ..]
    obtain ⟨permitted, _⟩ := (orderlyWith.follows _ _ entering givenUp hands orderlyWith.fits rfl).1
      isReady
    have takesOver := permitted package station.thread (by
      simp only [Gate.advance, unsettled]
      exact givenUp.gate.runner?_setCell_running package station.thread)
    rcases takesOver with owned | registered
    · rw [vacant] at owned
      cases owned
    · exact registered

end Crowds

end WorkerMachine
