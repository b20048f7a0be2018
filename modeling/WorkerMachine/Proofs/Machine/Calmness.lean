import WorkerMachine.Proofs.Machine.Hosts
import WorkerMachine.Proofs.Machine.Inits
/-!
# Calm steps

Apart from tasks that begin and end, everything that the threads of a machine do is calm: contexts only
grow older by it, constants keep their values, and it is no part of what has happened to workers.  So a discipline that tolerates
what is calm is followed by whoever passes a gate, runs an init or stores in global memory, if only the
tasks follow it.
-/

namespace WorkerMachine

/-- A step by which no task begins or ends, contexts only grow older and constants keep their values. -/
structure Machine.Calm (before after : Machine) : Prop where
  history : after.history = before.history ∨
    ∃ package context, after.history = .initCalled package context :: before.history
  arenas : ∀ key, (before.arena key).Ages (after.arena key)
  constants : before.KeepsConstants after

theorem Machine.Mild.calm {before after : Machine} (mild : before.Mild after) : before.Calm after :=
  ⟨.inl mild.history, mild.arenas, mild.constants⟩

/-- A step that leaves the contexts and the values of constants alone. -/
theorem Machine.calm_of_same {before after : Machine} (arenas : after.arenas = before.arenas)
    (resolved : after.resolved = before.resolved)
    (history : after.history = before.history ∨
      ∃ package context, after.history = .initCalled package context :: before.history) :
    before.Calm after := by
  refine ⟨history, fun key => ?_, Machine.keepsConstants_of_same resolved⟩
  unfold Machine.arena
  rw [arenas]
  exact Arena.Ages.refl _

variable {Thread Token : Type} [DecidableEq Thread]

/-- While a thread holds a token, a discipline tolerates every calm step of it, and every wait. -/
structure Discipline.ToleratesCalm (discipline : Discipline Thread Machine Token) (thread : Thread)
    (token : Token) : Prop where
  tolerates : ∀ machine later hands, discipline.fits machine hands → hands thread = token →
    machine.Calm later → discipline.permits machine later ∧ discipline.fits later hands
  excuses : ∀ machine hands, discipline.fits machine hands → hands thread = token →
    discipline.excuses machine hands thread

variable {discipline : Discipline Thread Machine Token} {thread : Thread} {token : Token}

omit [DecidableEq Thread] in
theorem Discipline.ToleratesCalm.mild (tolerance : discipline.ToleratesCalm thread token) :
    discipline.ToleratesMild thread token where
  tolerates := fun machine later hands fits holding mild =>
    tolerance.tolerates machine later hands fits holding mild.calm
  excuses := tolerance.excuses

section Tolerance

variable (tolerance : discipline.ToleratesCalm thread token)

include tolerance

theorem Process.calmly_modify {update : Machine → Machine}
    (calm : ∀ machine : Machine, machine.Calm (update machine)) :
    (modify update).Stays discipline thread token fun _ => True :=
  stays_modify (fun machine hands fits holding =>
    tolerance.tolerates machine _ hands fits holding (calm machine)) trivial

theorem Discipline.ToleratesCalm.stores : discipline.StoresStay thread token :=
  fun slot value => storeGlobal_stays slot value fun machine hands _ fits holding _ =>
    tolerance.tolerates machine _ hands fits holding (Machine.calm_of_same rfl rfl (.inl rfl))

theorem alterGate_stays (change : Gate → Gate) :
    (alterGate change).Stays discipline thread token fun _ => True :=
  Effect.stays_work (Process.calmly_modify tolerance fun _ =>
    Machine.calm_of_same rfl rfl (.inl rfl))

namespace Station

variable {station : Station}

theorem advancePhases_stays (package : String) (caller : ContextId) (bound : Nat)
    (phase : GatePhase) :
    (station.advancePhases package caller bound phase).Stays discipline thread token
      fun _ => True := by
  induction bound generalizing phase with
  | zero => exact Process.stays_done trivial
  | succ bound inductionHypothesis =>
    cases answered : phase.answer? with
    | some answer =>
      cases phase <;> cases answered
      exact Process.stays_done trivial
    | none =>
      rw [advancePhases_succ station package caller bound answered]
      intro machine hands fits holding
      refine ⟨fun _ => ?_, fun _ => tolerance.excuses machine hands fits holding⟩
      have tolerated : ∀ gate, discipline.permits machine { machine with gate := gate } ∧
          discipline.fits { machine with gate := gate } hands :=
        fun _ => tolerance.tolerates machine _ hands fits holding
          (Machine.calm_of_same rfl rfl (.inl rfl))
      refine ⟨(tolerated _).1, token, ?_, inductionHypothesis _⟩
      rw [← holding, Function.update_eq_self]
      exact (tolerated _).2

theorem passGate_stays (package : String) (caller : ContextId) :
    (station.passGate package caller).Stays discipline thread token fun _ => True :=
  (advancePhases_stays tolerance _ _ _ _).bind fun _ _ => advancePhases_stays tolerance _ _ _ _

theorem resolvePending_stays_calm (package : Package) :
    (resolvePending package).Stays discipline thread token fun _ => True := by
  have changes : ∀ {update : Machine → Machine}, (∀ machine : Machine, machine.Calm (update machine)) →
      (Effect.modify update).Stays discipline thread token fun _ => True :=
    fun calm => Effect.stays_work (Process.calmly_modify tolerance calm)
  have taken : (Effect.atomically (Machine.takePending package.name)).Stays discipline thread token
      fun _ => True := by
    refine Effect.stays_work (Process.stays_atomically fun machine hands fits holding => ?_)
    obtain ⟨permitted, fitsAfter⟩ := tolerance.tolerates machine
      (machine.takePending package.name).2 hands fits holding (Machine.calm_of_same rfl rfl (.inl rfl))
    exact ⟨permitted, fitsAfter, trivial⟩
  unfold resolvePending
  refine taken.bind fun waiting _ => ?_
  refine (Effect.tolerated_read _).bind fun constants _ => ?_
  split
  · next values => exact changes fun machine => (machine.mild_resolveConstants values).calm
  · refine Effect.Stays.bind (changes fun _ => ?_) fun _ _ => Effect.stays_fail _
    exact Machine.calm_of_same rfl rfl (.inl rfl)

theorem openInit_stays (package : Package) (parent : Context) :
    (station.openInit package parent).Stays discipline thread token fun _ => True := by
  refine Process.Stays.bind (Process.calmly_modify tolerance fun _ =>
    Machine.calm_of_same rfl rfl (.inl rfl)) fun _ _ => ?_
  refine Process.Stays.bind (Process.tolerated_atomically tolerance.mild fun machine =>
    machine.mild_inArena _ fun arena => arena.register_ages _) fun id _ => ?_
  refine Process.Stays.bind (Process.calmly_modify tolerance fun _ =>
    Machine.calm_of_same rfl rfl (.inr ⟨_, _, rfl⟩)) fun _ _ => ?_
  exact Process.stays_done trivial

theorem finishInit_stays (package : Package)
    (called : Except Interruption (Except Fault Unit) × Context) :
    (station.finishInit package called).Stays discipline thread token fun _ => True := by
  unfold finishInit
  refine Effect.Stays.bind (Effect.stays_mk fun _ _ => trivial) fun invoked _ => ?_
  refine (alterGate_stays tolerance _).bind fun _ _ => ?_
  refine Effect.Stays.bind (Effect.stays_ofExcept fun _ _ => trivial) fun _ _ => ?_
  exact resolvePending_stays_calm tolerance package

theorem settleInit_stays (package : Package) (outcome : Except Fault Unit) :
    (station.settleInit package outcome).Stays discipline thread token fun _ => True := by
  unfold settleInit
  refine (alterGate_stays tolerance _).bind fun _ _ => ?_
  refine (alterGate_stays tolerance _).bind fun _ _ => ?_
  exact Effect.stays_ofExcept fun _ _ => trivial

theorem closeInit_stays (package : Package) (outcome : Except Interruption Unit) :
    (station.closeInit package outcome).Stays discipline thread token fun _ => True := by
  have givenBack : ∀ interruption : Interruption, (Process.bind (Process.modify fun machine : Machine =>
      { machine with gate := machine.gate.setCell package.name .untouched }) fun _ =>
        .done (.error interruption : Except Interruption Unit)).Stays discipline thread token
        fun _ => True := by
    intro interruption
    refine Process.Stays.bind (Process.calmly_modify tolerance fun _ => ?_)
      fun _ _ => Process.stays_done trivial
    exact Machine.calm_of_same rfl rfl (.inl rfl)
  have settled : ∀ outcome, (station.settleInit package outcome).run.Stays discipline thread token
      fun _ => True :=
    fun outcome => (settleInit_stays tolerance package outcome).run.weaken fun _ _ => trivial
  rcases outcome with (_ | _ | _) | _
  · exact settled _
  · exact givenBack _
  · exact givenBack _
  · exact settled _

variable (tasks : station.TasksStay discipline thread token)

include tasks

theorem attemptUnit_stays (unit : Callable) (context : Context) :
    ((station.callUnit unit).attempt.runOn context).Stays discipline thread token fun _ => True :=
  (callRegisters_stays tolerance.mild tasks unit [] [] context).attempt.run.weaken
    fun _ _ => trivial

theorem runInit_stays (package : Package) (parent : Context) :
    (station.runInit package parent).run.Stays discipline thread token fun _ => True := by
  cases isInit : package.init with
  | none =>
    unfold runInit
    rw [isInit]
    exact (resolvePending_stays_calm tolerance package).run.weaken fun _ _ => trivial
  | some unit =>
    rw [runInit_eq isInit]
    refine (openInit_stays tolerance package parent).bind fun context _ => ?_
    refine (attemptUnit_stays tolerance tasks unit context).bind fun called _ => ?_
    have finished := (@finishInit_stays _ _ _ _ _ _ tolerance station package called).followedBy
      (release_stays tolerance.mild context)
    exact finished.run.weaken fun _ _ => trivial

/-- Whoever passes a gate runs tasks, and is calm otherwise. -/
theorem ensureInitialized_stays (package : Package) (caller : Context) :
    (station.ensureInitialized package caller).Stays discipline thread token fun _ => True := by
  have passed : (station.ensureInitialized package caller).run.Stays discipline thread token
      fun _ => True := by
    rw [ensureInitialized_eq]
    refine (passGate_stays tolerance package.name caller.id).bind fun phase _ => ?_
    split
    · exact Process.stays_done trivial
    · next outcome _ =>
      have answered : (Effect.ofExcept outcome).Stays discipline thread token fun _ => True :=
        Effect.stays_ofExcept fun _ _ => trivial
      exact answered.run.weaken fun _ _ => trivial
    · exact (runInit_stays tolerance tasks package caller).bind fun outcome _ =>
        closeInit_stays tolerance package outcome
  refine Process.Follows.weaken passed ?_
  rintro (_ | _) last reached
  · exact reached.1
  · exact reached

theorem gates_stay_calm : station.GatesStay discipline thread token :=
  fun _ package _ caller => ensureInitialized_stays tolerance tasks package caller

end Station

end Tolerance

end WorkerMachine
