import WorkerMachine.Proofs.Settling.Shapes
/-!
# Inits and the books

Passing the gate of a package is no concern of the books, and an init is a call of a unit without
arguments and results from a context of its own.
-/

namespace WorkerMachine

open Settling

variable {thread : ThreadId} {token rest : Settling.Hand} {station : Station} {package : Package}

/-! ## Constants -/

theorem Machine.exists_resolveConstants (values : List (Nat × Constant)) (machine : Machine) :
    ∃ resolved, machine.resolveConstants values = { machine with resolved := resolved } := by
  unfold resolveConstants
  induction values generalizing machine with
  | nil => exact ⟨machine.resolved, rfl⟩
  | cons value rest inductionHypothesis =>
    rw [List.foldl_cons]
    obtain ⟨resolved, isResolved⟩ := inductionHypothesis (machine.resolveConstant value.1 value.2)
    rw [isResolved]
    unfold resolveConstant
    split
    · exact ⟨resolved, rfl⟩
    · exact ⟨resolved, rfl⟩

theorem resolvePending_settles (package : Package) :
    (resolvePending package).Stays .settling thread token fun _ => True := by
  unfold resolvePending
  have taken : (Effect.atomically (Machine.takePending package.name)).Stays .settling thread token
      fun _ => True :=
    Effect.stays_work (Process.calm_atomically fun _ => quiet_of_same rfl rfl rfl rfl)
  apply taken.bind
  intro waiting _
  have looked : (Effect.read fun machine => readConstants package machine.globals waiting).Stays
      .settling thread token fun _ => True :=
    Effect.stays_read fun _ _ _ _ => trivial
  apply looked.bind
  intro constants _
  split
  · next values =>
    apply Effect.calm_modify
    intro machine
    obtain ⟨resolved, isResolved⟩ := machine.exists_resolveConstants values
    rw [isResolved]
    exact quiet_of_same rfl rfl rfl rfl
  · refine Effect.Stays.bind (Effect.calm_modify fun _ => quiet_of_same rfl rfl rfl rfl) ?_
    intro _ _
    exact Effect.stays_fail _

/-! ## Inits -/

theorem alterGate_settles (change : Gate → Gate) :
    (alterGate change).Stays .settling thread token fun _ => True :=
  Effect.calm_modify fun _ => quiet_of_same rfl rfl rfl rfl

theorem callInit_settles (package : String) (mark : InitMark) :
    (Effect.modify (Machine.callInit package mark)).Stays .settling thread token fun _ => True := by
  apply Effect.stays_work
  apply Process.stays_modify _ trivial
  intro machine hands fits _
  obtain ⟨books, agree⟩ := fits
  have quiet : Quiet none machine { machine with gate := machine.gate.mark package mark } :=
    quiet_of_same rfl rfl rfl rfl
  exact ⟨quiet.proceeds_record _, ⟨books, (agree.calm quiet).note nofun⟩⟩

/-- A root is opened below a context, and is known to be active. -/
theorem Context.openChild_settles (parent : Context) {upset : Interruption → Settling.Hand → Prop} :
    parent.openChild.Follows .settling thread token
      (fun child last => last = .context child.place true :: token) upset := by
  unfold openChild
  apply Effect.Follows.bind (registerContext_settles parent.arena _ true fun _ => rfl)
  rintro id _ rfl
  exact rfl

namespace Station

variable (tasks : station.SettlesTasks)

include tasks

/-- A call with registers that is forgotten leaves the hand as it is. -/
theorem callRegisters_stays_settling {unit : Callable} (sound : unit.Sound) (context : Context)
    (arguments returns : List Nat) :
    (station.callRegisters unit arguments returns).Stays .settling station.thread token context
      (fun _ => context.LeftAs) context.LeftAs := by
  have called : ((station.callRegisters unit arguments returns).runOn context).Follows .settling
      station.thread token fun result last => last = token ∧ context.LeftAs result.2 := by
    rw [callRegisters_eq_invokeInSteps]
    apply Process.Follows.bind (invokeInSteps_settles tasks sound)
    rintro outcome _ rfl
    exact ⟨rfl, context.leftAs_receiveStepwise outcome⟩
  apply Process.Follows.weaken called
  rintro ⟨outcome, after⟩ last left
  cases outcome with
  | ok _ => exact left
  | error _ => exact left

theorem callValues_stays_settling {unit : Callable} (sound : unit.Sound) (parent : Context)
    (arguments : List Value) :
    (station.callValues unit parent arguments).Stays .settling station.thread token
      fun _ => True := by
  have called : (station.callValues unit parent arguments).run.Follows .settling station.thread
      token fun _ last => last = token := by
    by_cases arity : unit.params.length = arguments.length
    · cases lowered : Marshalling.lower unit.params arguments with
      | ok source =>
        rw [callValues_eq_invokeInSteps station parent arity lowered]
        apply Process.Follows.bind (invokeInSteps_settles tasks sound)
        rintro outcome _ rfl
        exact rfl
      | error interruption =>
        unfold callValues Callable.checkArity
        rw [if_pos arity, lowered]
        exact rfl
    · unfold callValues Callable.checkArity
      rw [if_neg arity]
      exact rfl
  apply Process.Follows.weaken called
  intro outcome last isToken
  cases outcome with
  | ok _ => exact ⟨isToken, trivial⟩
  | error _ => exact isToken

/-- The init unit of a package is called from a context of its own. -/
theorem runInit_settles (sound : package.Sound) (parent : Context) :
    (station.runInit package parent).Stays .settling station.thread token fun _ => True := by
  unfold runInit
  split
  · exact resolvePending_settles package
  · next unit isInit =>
    have unitSound := (sound unit (.inl isInit)).2
    apply Effect.Follows.bind (tally_settles _)
    intro _ _ isToken
    rw [isToken]
    apply Effect.Follows.bind parent.openChild_settles
    rintro context _ rfl
    have called : (station.callUnit unit).attempt.Stays .settling station.thread
        (.context context.place true :: token) context (fun _ => context.LeftAs) context.LeftAs :=
      (callRegisters_stays_settling tasks unitSound context [] []).attempt
    refine Effect.Follows.followedBy
      (?initialized : Effect.Stays .settling station.thread (.context context.place true :: token) _
        fun _ => True) fun outcome hand reached => ?released
    case initialized =>
      apply Effect.Stays.bind (callInit_settles package.name ⟨context.id, station.thread⟩)
      intro _ _
      apply Effect.Stays.bind (Effect.stays_work called.run)
      intro answer _
      apply Effect.Stays.bind (Effect.stays_mk fun _ _ => trivial)
      intro invoked _
      apply Effect.Stays.bind (alterGate_settles _)
      intro _ _
      apply Effect.Stays.bind (Effect.stays_ofExcept fun _ _ => trivial)
      intro _ _
      exact resolvePending_settles package
    case released =>
      have isHand : hand = .context context.place true :: token := by
        cases outcome with
        | ok _ => exact reached.1
        | error _ => exact reached
      rw [isHand]
      apply Process.Follows.weaken context.release_settles
      rintro _ _ rfl
      cases outcome with
      | ok _ => exact ⟨rfl, trivial⟩
      | error _ => exact rfl

omit tasks in
theorem advancePhases_settles (package : String) (caller : ContextId) (bound : Nat)
    (phase : GatePhase) :
    (station.advancePhases package caller bound phase).Stays .settling station.thread token
      fun _ => True := by
  induction bound generalizing phase with
  | zero => exact Process.stays_done trivial
  | succ bound inductionHypothesis =>
    cases answered : phase.answer? with
    | some answer =>
      cases phase <;> cases answered
      exact Process.stays_done trivial
    | none =>
      rw [advancePhases_succ station package caller bound answered]
      intro machine hands fits holding
      obtain ⟨books, agree⟩ := fits
      refine ⟨fun _ => ?_, fun _ => trivial⟩
      have quiet : ∀ gate, Quiet none machine { machine with gate := gate } :=
        fun _ => quiet_of_same rfl rfl rfl rfl
      refine ⟨(quiet _).proceeds, token, ⟨books, ?_⟩, inductionHypothesis _⟩
      rw [← holding, Function.update_eq_self]
      exact agree.calm (quiet _)

/-- Making sure that a package is initialized leaves the hand as it is. -/
theorem ensureInitialized_settles (sound : package.Sound) (caller : Context) :
    (station.ensureInitialized package caller).Stays .settling station.thread token
      fun _ => True := by
  have passed : (station.passGate package.name caller.id).Stays .settling station.thread token
      fun _ => True :=
    Process.Stays.bind (advancePhases_settles _ _ _ _) fun _ _ => advancePhases_settles _ _ _ _
  unfold ensureInitialized
  apply Effect.Stays.bind (Effect.stays_work passed)
  intro phase _
  split
  · exact Effect.stays_throw _
  · exact Effect.stays_ofExcept fun _ _ => trivial
  · have attempted : (station.runInit package caller).attempt.Stays .settling station.thread token
        fun _ => True :=
      (runInit_settles tasks sound caller).attempt
    have undone : (Process.modify fun machine : Machine =>
          { machine with gate := machine.gate.setCell package.name .untouched }).Stays .settling
        station.thread token fun _ => True :=
      Process.calm_modify fun _ => quiet_of_same rfl rfl rfl rfl
    apply Effect.Stays.bind (attempted.orElseRun undone)
    intro outcome _
    apply Effect.Stays.bind (alterGate_settles _)
    intro _ _
    apply Effect.Stays.bind (alterGate_settles _)
    intro _ _
    exact Effect.stays_ofExcept fun _ _ => trivial

end Station

end WorkerMachine
