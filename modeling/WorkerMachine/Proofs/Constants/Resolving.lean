import WorkerMachine.Proofs.Constants.Claims
import WorkerMachine.Proofs.Machine.Hosts
import WorkerMachine.Proofs.Machine.Inits
/-!
# Resolving constants under a claim

The gate gives a claim to the thread that takes over the untouched cell of a package.  Under the claim
the thread finds the constants of the package waiting as they were declared, and what reading them
comes to is their verdict; with the settled cell the claim is over.
-/

namespace WorkerMachine

open Clearance

variable {Thread : Type} [DecidableEq Thread] {program : Program}
  {declared : String → List ConstantAttribute} {thread : Thread} {token rest : List Claim}
  {package : Package} {upset : Interruption → List Claim → Prop}

/-! ## Steps that do not matter to claims -/

omit [DecidableEq Thread] in
theorem Discipline.claiming_toleratesMild (program : Program)
    (declared : String → List ConstantAttribute) (thread : Thread) (token : List Claim) :
    (claiming Thread program declared).ToleratesMild thread token where
  tolerates := fun _ _ _ fits _ mild =>
    ⟨trivial, Claimed.of_same fits (by rw [mild.globals]) (by rw [mild.gate]) mild.pending⟩
  excuses := fun _ _ _ _ => trivial

theorem Machine.pending_startTask (task : Task) (machine : Machine) :
    (machine.startTask task).2.pending = machine.pending := by
  unfold Machine.startTask
  split
  · next moved => exact congrArg (fun answer => answer.2.pending) moved.symm
  · next moved => exact congrArg (fun answer => answer.2.pending) moved.symm

omit [DecidableEq Thread] in
theorem Discipline.claiming_toleratesTasks (program : Program)
    (declared : String → List ConstantAttribute) (thread : Thread) (token : List Claim) :
    (claiming Thread program declared).ToleratesTasks thread token where
  starts := fun machine _ task fits _ =>
    ⟨trivial, Claimed.of_same fits (by rw [(machine.startTask_spares task).1])
      (by rw [(machine.startTask_spares task).2]) (machine.pending_startTask task)⟩
  ends := fun _ _ _ _ _ fits _ => ⟨trivial, Claimed.of_same fits rfl rfl rfl⟩

/-- A store in global memory keeps its sizes. -/
theorem Discipline.claiming_storesStay (program : Program)
    (declared : String → List ConstantAttribute) (thread : Thread) (token : List Claim) :
    (claiming Thread program declared).StoresStay thread token :=
  fun slot value => storeGlobal_stays slot value fun _ _ _ fits _ succeeds =>
    ⟨trivial, Claimed.of_same fits (RegisterFile.sizes_of_storeOrKeep succeeds) rfl rfl⟩

/-! ## Passing the gate -/

def GatePhase.claims : GatePhase → Bool
  | .beginInit | .answered .claimed => true
  | _ => false

/-- The claims of a thread that had some others before a passage. -/
def GatePhase.held (phase : GatePhase) (package : String) (rest : List Claim) : List Claim :=
  if phase.claims then ⟨package, false⟩ :: rest else rest

/-- In one phase of a passage a stage changes only where an untouched package is claimed. -/
theorem Gate.stage_advance_cases {gate later : Gate} {number : ThreadId} {name : String}
    {descends : ContextId → Bool} {phase next : GatePhase} (ready : gate.ready name phase = true)
    (turn : gate.advance number name descends phase = (next, later)) :
    later.stage = gate.stage ∧ next.claims = phase.claims ∨
      gate.stage name = .untouched ∧ later.stage = Function.update gate.stage name .running ∧
        phase.claims = false ∧ next.claims = true := by
  cases phase with
  | lookForMark =>
    simp only [advance] at turn
    split at turn <;> cases turn <;> exact .inl ⟨rfl, rfl⟩
  | judgeMark mark =>
    simp only [advance] at turn
    split at turn
    · cases turn
      exact .inl ⟨rfl, rfl⟩
    · split at turn <;> cases turn <;> exact .inl ⟨rfl, rfl⟩
  | openCell =>
    simp only [advance] at turn
    split at turn
    · cases turn
      exact .inl ⟨rfl, rfl⟩
    · next isAbsent =>
      cases turn
      refine .inl ⟨?_, rfl⟩
      rw [stage_setCell, Function.update_eq_self_iff]
      exact (stage_of_not_contains isAbsent).symm
  | lookForOutcome =>
    simp only [advance] at turn
    split at turn <;> cases turn <;> exact .inl ⟨rfl, rfl⟩
  | announceWait | countWaits | refuse | beginInit | leave _ | answered _ =>
    cases turn
    exact .inl ⟨rfl, rfl⟩
  | findHolder held turns =>
    cases turns with
    | zero =>
      cases turn
      exact .inl ⟨rfl, rfl⟩
    | succ turns =>
      simp only [advance] at turn
      split at turn
      · cases turn
        exact .inl ⟨rfl, rfl⟩
      · split at turn <;> cases turn <;> exact .inl ⟨rfl, rfl⟩
  | findWait holder turns =>
    simp only [advance] at turn
    split at turn <;> cases turn <;> exact .inl ⟨rfl, rfl⟩
  | enterCell =>
    simp only [advance] at turn
    split at turn
    · cases turn
      exact .inl ⟨rfl, rfl⟩
    · next isNone =>
      cases turn
      have notRunning : gate.isRunning name = false := by
        simpa [Gate.ready] using ready
      refine .inr ⟨stage_eq_of_outcome? isNone notRunning, ?_, rfl, rfl⟩
      rw [stage_setCell]

namespace Station

variable {station : Station} {name : String} {caller : ContextId}

theorem advancePhases_claims (bound : Nat) (phase : GatePhase) :
    (station.advancePhases name caller bound phase).Follows (.claiming Thread program declared)
      thread (phase.held name rest) fun last token =>
        token = last.held name rest ∧ last.untilCounted ≤ phase.untilCounted - bound ∧
          (phase.untilCounted = 0 → last.untilAnswered ≤ phase.untilAnswered - bound) := by
  induction bound generalizing phase with
  | zero => exact ⟨rfl, le_refl _, fun _ => le_refl _⟩
  | succ bound inductionHypothesis =>
    cases answered : phase.answer? with
    | some answer =>
      cases phase <;> cases answered
      exact ⟨rfl, Nat.zero_le _, fun _ => Nat.zero_le _⟩
    | none =>
      rw [advancePhases_succ station name caller bound answered]
      intro machine hands fits holding
      refine ⟨fun isReady => ⟨trivial, ?_⟩, fun _ => trivial⟩
      beta_reduce
      generalize (fun context : ContextId =>
        ((machine.arena Machine.ownArena).ancestry caller).contains context) = descends
      have nearCount := phase.untilCounted_advance station.thread name descends machine.gate
      have nearAnswer := phase.untilAnswered_advance station.thread name descends machine.gate
      obtain ⟨next, gate, turn⟩ : ∃ next gate,
          machine.gate.advance station.thread name descends phase = (next, gate) :=
        ⟨_, _, rfl⟩
      rw [turn] at nearCount nearAnswer ⊢
      dsimp only at nearCount nearAnswer ⊢
      refine ⟨next.held name rest, ?_, (inductionHypothesis next).weaken ?_⟩
      rotate_left
      · rintro last token ⟨isHeld, counted, answered⟩
        refine ⟨isHeld, by omega, fun isCounted => ?_⟩
        have nearer := nearAnswer isCounted
        have further := answered (by omega)
        omega
      obtain ⟨sameStage, sameClaims⟩ | ⟨untouched, running, hadNone, claims⟩ :=
        Gate.stage_advance_cases isReady turn
      · have sameHeld : next.held name rest = phase.held name rest := by
          unfold GatePhase.held
          rw [sameClaims]
        rw [sameHeld, ← holding, Function.update_eq_self]
        exact Claimed.of_same fits rfl sameStage rfl
      · have noClaim : hands thread = rest := by
          rw [holding]
          unfold GatePhase.held
          rw [hadNone]
          rfl
        have isClaim : next.held name rest = ⟨name, false⟩ :: rest := by
          unfold GatePhase.held
          rw [claims]
          rfl
        rw [isClaim]
        exact Claimed.claim fits noClaim untouched running

theorem passGate_claims :
    (station.passGate name caller).Follows (.claiming Thread program declared) thread rest
      fun last token => last.answer?.isSome = true ∧ token = last.held name rest := by
  have counted : (station.advancePhases name caller 6 .lookForMark).Follows
      (.claiming Thread program declared) thread (GatePhase.lookForMark.held name rest) _ :=
    station.advancePhases_claims 6 .lookForMark
  refine Process.Follows.bind counted ?_
  rintro middle _ ⟨rfl, nearCount, _⟩
  have isCounted : middle.untilCounted = 0 := Nat.le_zero.mp nearCount
  refine (station.advancePhases_claims _ middle).weaken ?_
  rintro last token ⟨isHeld, stillCounted, nearAnswer⟩
  have isAnswered := nearAnswer isCounted
  exact ⟨GatePhase.isSome_answer?_of_done (by omega) (by omega), isHeld⟩

end Station

/-! ## Resolving -/

/-- Resolving constants under a claim comes to their verdict, and takes them off the list if it succeeds. -/
def Package.Resolves (package : Package) (declared : String → List ConstantAttribute)
    (rest : List Claim) (outcome : Except Interruption Unit) (last : List Claim) : Prop :=
  outcome = (package.verdict (declared package.name)).mapError .fault ∧
    last = ⟨package.name, outcome.isOk⟩ :: rest

/-- An init under a claim resolves constants, or comes to a failure of the init unit. -/
def Package.EndsInit (package : Package) (declared : String → List ConstantAttribute)
    (rest : List Claim) (outcome : Except Interruption Unit) (last : List Claim) : Prop :=
  last = ⟨package.name, outcome.isOk⟩ :: rest ∧
    (outcome = (package.verdict (declared package.name)).mapError .fault ∨
      package.init.isSome = true ∧ outcome.isOk = false ∧
        ∀ fault, outcome = .error (.fault fault) → fault.isFatal = true)

section Inits

variable (within : package.Within program.globalSizes)

include within

/-- Under a claim the constants of a package wait as they were declared, and resolving them comes to
their verdict. -/
theorem resolvePending_claims :
    (resolvePending package).Follows (.claiming Thread program declared) thread
      (⟨package.name, false⟩ :: rest) (fun _ => package.Resolves declared rest (.ok ()))
      (fun interruption => package.Resolves declared rest (.error interruption)) := by
  have taken : (Effect.atomically (Machine.takePending package.name)).Follows
      (.claiming Thread program declared) thread (⟨package.name, false⟩ :: rest)
      (fun waiting last => waiting = declared package.name ∧ last = ⟨package.name, true⟩ :: rest)
      (fun interruption => package.Resolves declared rest (.error interruption)) := by
    refine Effect.follows_atomically fun machine hands fits holding => ?_
    have isWaiting : machine.pendingOf package.name = declared package.name :=
      fits.left thread ⟨package.name, false⟩ (holding ▸ List.mem_cons_self)
    exact ⟨trivial, _, Claimed.relist fits holding true rfl, isWaiting, rfl⟩
  unfold resolvePending
  refine taken.bind ?_
  rintro _ _ ⟨rfl, rfl⟩
  have looked : (Effect.read fun machine : Machine =>
      readConstants package machine.globals (declared package.name)).Follows
      (.claiming Thread program declared) thread (⟨package.name, true⟩ :: rest)
      (fun read last => read.map (fun _ => ()) = package.verdict (declared package.name) ∧
        last = ⟨package.name, true⟩ :: rest)
      (fun interruption => package.Resolves declared rest (.error interruption)) := by
    refine Effect.follows_read fun machine hands fits _ => ⟨?_, rfl⟩
    apply Package.readConstants_verdict
    rw [fits.sized]
    exact within
  refine looked.bind ?_
  rintro read _ ⟨isVerdict, rfl⟩
  cases read with
  | ok values =>
    have resolved := Process.tolerated_modify
      (Discipline.claiming_toleratesMild program declared thread (⟨package.name, true⟩ :: rest))
      fun machine => machine.mild_resolveConstants values
    refine Effect.follows_work (Process.Follows.weaken resolved ?_)
    rintro _ _ ⟨rfl, _⟩
    refine ⟨?_, rfl⟩
    rw [← isVerdict]
    rfl
  | error fault =>
    have restored : (Effect.modify (Machine.restorePending package.name
        (declared package.name))).Follows (.claiming Thread program declared) thread
        (⟨package.name, true⟩ :: rest) (fun _ last => last = ⟨package.name, false⟩ :: rest)
        (fun interruption => package.Resolves declared rest (.error interruption)) := by
      refine Effect.follows_modify fun machine hands fits holding => ?_
      have isEmpty : machine.pendingOf package.name = [] :=
        fits.left thread ⟨package.name, true⟩ (holding ▸ List.mem_cons_self)
      refine ⟨trivial, _, Claimed.relist fits holding false ?_, rfl⟩
      change declared package.name ++ machine.pendingOf package.name = declared package.name
      rw [isEmpty, List.append_nil]
    refine restored.bind ?_
    rintro _ _ rfl
    refine Effect.follows_fail ⟨?_, rfl⟩
    rw [← isVerdict]
    rfl

end Inits

/-! ## Whole inits -/

def Station.unitOutcome (station : Station) (package : Package)
    (called : Except Interruption (Except Fault Unit) × Context) : Except Interruption Unit :=
  called.1.bind fun invoked =>
    (initOutcome station.traceStyle package.name called.2.error invoked).mapError .fault

theorem Fault.isFatal_of_initOutcome {style : TraceStyle} {name : String}
    {raised : Option ErrorValue} {invoked : Except Fault Unit} {fault : Fault}
    (fails : initOutcome style name raised invoked = .error fault) : fault.isFatal = true := by
  unfold initOutcome at fails
  split at fails
  · cases fails
    rfl
  · split at fails
    · next isFatal =>
      cases fails
      exact isFatal
    · cases fails
      rfl
  · cases fails

theorem Station.isFatal_of_unitOutcome {station : Station} {fault : Fault}
    {called : Except Interruption (Except Fault Unit) × Context}
    (noFault : ∀ fault, called.1 ≠ .error (.fault fault))
    (fails : station.unitOutcome package called = .error (.fault fault)) :
    fault.isFatal = true := by
  obtain ⟨invoked, after⟩ := called
  cases invoked with
  | error interruption =>
    cases fails
    exact absurd rfl (noFault fault)
  | ok invoked =>
    unfold unitOutcome at fails
    dsimp only [Except.bind] at fails
    cases isOutcome : initOutcome station.traceStyle package.name after.error invoked with
    | ok _ =>
      rw [isOutcome] at fails
      cases fails
    | error other =>
      rw [isOutcome] at fails
      cases fails
      exact Fault.isFatal_of_initOutcome isOutcome

namespace Station

variable {station : Station} {parent : Context}

/-- Up to the call of its unit, an init does not matter to claims. -/
theorem openInit_claims :
    (station.openInit package parent).Stays (.claiming Thread program declared) thread token
      fun _ => True := by
  have tolerance := Discipline.claiming_toleratesMild program declared thread token
  refine Process.Stays.bind (Process.tolerated_modify tolerance
    fun _ => Machine.mild_of_same rfl rfl rfl rfl rfl rfl) fun _ _ => ?_
  refine Process.Stays.bind (Process.tolerated_atomically tolerance fun machine =>
    machine.mild_inArena _ fun arena => arena.register_ages _) fun id _ => ?_
  have marked : (Process.modify (Machine.callInit package.name ⟨id, station.thread⟩)).Stays
      (.claiming Thread program declared) thread token fun _ => True :=
    Process.stays_modify (fun _ _ fits _ => ⟨trivial, Claimed.of_same fits rfl rfl rfl⟩) trivial
  exact marked.bind fun _ _ => Process.stays_done trivial

/-- The call of an init unit does not matter to claims, and no fault breaks it off. -/
theorem attemptUnit_claims
    (tasks : station.TasksStay (.claiming Thread program declared) thread token)
    (unit : Callable) (context : Context) :
    ((station.callUnit unit).attempt.runOn context).Stays (.claiming Thread program declared)
      thread token fun called => ∀ fault, called.1 ≠ .error (.fault fault) := by
  have tolerance := Discipline.claiming_toleratesMild program declared thread token
  have stays := callRegisters_stays tolerance tasks unit [] [] context
  unfold callUnit
  rw [Routine.runOn_attempt]
  refine Process.Follows.bind stays ?_
  rintro ⟨outcome, after⟩ last reached
  have same : last = token := by
    cases outcome with
    | ok _ => exact reached.1
    | error _ => exact reached.1
  rcases outcome with (_ | _ | _) | _ <;> exact ⟨same, by simp⟩

/-- After the call of its unit, an init comes to what the unit has failed with, or resolves the
constants. -/
theorem finishInit_claims (within : package.Within program.globalSizes)
    (called : Except Interruption (Except Fault Unit) × Context) :
    (station.finishInit package called).run.Follows (.claiming Thread program declared) thread
      (⟨package.name, false⟩ :: rest) fun outcome last =>
        last = ⟨package.name, outcome.isOk⟩ :: rest ∧
          outcome = (station.unitOutcome package called).bind fun _ =>
            (package.verdict (declared package.name)).mapError .fault := by
  obtain ⟨invoked, after⟩ := called
  cases invoked with
  | error interruption => exact ⟨rfl, rfl⟩
  | ok invoked =>
    have unmarked : (Process.modify fun machine : Machine =>
          { machine with gate := machine.gate.unmark package.name }).Stays
        (.claiming Thread program declared) thread (⟨package.name, false⟩ :: rest) fun _ => True :=
      Process.stays_modify (fun _ _ fits _ => ⟨trivial, Claimed.of_same fits rfl rfl rfl⟩) trivial
    rw [finishInit_eq]
    refine Process.Follows.bind unmarked ?_
    rintro _ _ ⟨rfl, _⟩
    unfold unitOutcome
    dsimp only [Except.bind]
    cases initOutcome station.traceStyle package.name after.error invoked with
    | error fault => exact ⟨rfl, rfl⟩
    | ok _ =>
      refine Process.Follows.weaken (resolvePending_claims within) ?_
      rintro (_ | _) last ⟨isVerdict, rfl⟩ <;> exact ⟨rfl, isVerdict⟩

theorem runInit_claims (within : package.Within program.globalSizes)
    (tasks : station.TasksStay (.claiming Thread program declared) thread
      (⟨package.name, false⟩ :: rest)) :
    (station.runInit package parent).run.Follows (.claiming Thread program declared) thread
      (⟨package.name, false⟩ :: rest) (package.EndsInit declared rest) := by
  cases isInit : package.init with
  | none =>
    unfold runInit
    rw [isInit]
    refine Process.Follows.weaken (resolvePending_claims within) ?_
    rintro (_ | _) last ⟨isVerdict, rfl⟩ <;> exact ⟨rfl, .inl isVerdict⟩
  | some unit =>
    rw [runInit_eq isInit]
    refine Process.Follows.bind openInit_claims ?_
    rintro context _ ⟨rfl, _⟩
    refine Process.Follows.bind (attemptUnit_claims tasks unit context) ?_
    rintro called _ ⟨rfl, noFault⟩
    rw [Effect.run_followedBy]
    refine Process.Follows.bind (finishInit_claims within called) ?_
    rintro outcome _ ⟨rfl, isOutcome⟩
    have tolerance := Discipline.claiming_toleratesMild program declared thread
      (⟨package.name, outcome.isOk⟩ :: rest)
    refine Process.Follows.bind (release_stays tolerance context) ?_
    rintro _ _ ⟨rfl, _⟩
    refine ⟨rfl, ?_⟩
    cases ofUnit : station.unitOutcome package called with
    | ok _ =>
      rw [ofUnit] at isOutcome
      exact .inl isOutcome
    | error interruption =>
      rw [ofUnit] at isOutcome
      subst isOutcome
      refine .inr ⟨by rw [isInit]; rfl, rfl, fun fault isFault => ?_⟩
      cases isFault
      exact isFatal_of_unitOutcome noFault ofUnit

theorem settleInit_claims {taken : Bool} {outcome : Except Fault Unit}
    (found : program.package package.name = .ok package)
    (ends : package.EndsAs (declared package.name) outcome
      ((⟨package.name, taken⟩ : Claim).left declared)) :
    (station.settleInit package outcome).run.Follows (.claiming Thread program declared) thread
      (⟨package.name, taken⟩ :: rest) fun _ last => last = rest := by
  have settled : (Process.modify fun machine : Machine =>
        { machine with gate := machine.gate.setCell package.name (.settled outcome) }).Follows
      (.claiming Thread program declared) thread (⟨package.name, taken⟩ :: rest)
      fun _ last => last = rest := by
    refine Process.follows_modify fun machine hands fits holding => ⟨trivial, rest, ?_, rfl⟩
    refine Claimed.release fits holding (Gate.stage_setCell ..) nofun fun other _ isOther same => ?_
    cases found.symm.trans isOther
    cases same
    exact ends
  have withdrawn : (Process.modify fun machine : Machine =>
        { machine with gate := machine.gate.withdraw station.thread }).Stays
      (.claiming Thread program declared) thread rest fun _ => True :=
    Process.stays_modify (fun _ _ fits _ => ⟨trivial, Claimed.of_same fits rfl rfl rfl⟩) trivial
  rw [settleInit_eq]
  refine Process.Follows.bind settled ?_
  rintro _ _ rfl
  refine Process.Follows.bind withdrawn ?_
  rintro _ _ ⟨rfl, _⟩
  exact rfl

theorem closeInit_claims {outcome : Except Interruption Unit} {last : List Claim}
    (found : program.package package.name = .ok package)
    (ends : package.EndsInit declared rest outcome last) :
    (station.closeInit package outcome).Follows (.claiming Thread program declared) thread last
      fun _ after => after = rest := by
  obtain ⟨rfl, comesTo⟩ := ends
  -- An init that was broken off has left the constants where they were.
  have givenBack : ∀ interruption : Interruption, (Process.bind (Process.modify fun machine : Machine =>
        { machine with gate := machine.gate.setCell package.name .untouched }) fun _ =>
          .done (.error interruption : Except Interruption Unit)).Follows
      (.claiming Thread program declared) thread (⟨package.name, false⟩ :: rest)
      fun _ after => after = rest := by
    intro interruption machine hands fits holding
    refine ⟨fun _ => ⟨trivial, rest, ?_, rfl⟩, fun _ => trivial⟩
    exact Claimed.release fits holding (Gate.stage_setCell ..) (fun _ => rfl) nofun
  obtain isVerdict | ⟨isInit, isError, isFatal⟩ := comesTo
  · cases ofPackage : package.verdict (declared package.name) with
    | ok _ =>
      rw [ofPackage] at isVerdict
      subst isVerdict
      exact settleInit_claims found (.resolved ofPackage)
    | error fault =>
      rw [ofPackage] at isVerdict
      subst isVerdict
      exact settleInit_claims found (.refused ofPackage)
  · rcases outcome with (fault | _ | _) | _
    · exact settleInit_claims found (.failed isInit (isFatal fault rfl))
    · exact givenBack _
    · exact givenBack _
    · cases isError

/-- A call that passes the gate of a package of the program has afterwards the claims that it had
before. -/
theorem ensureInitialized_claims (found : program.package package.name = .ok package)
    (within : package.Within program.globalSizes)
    (tasks : station.TasksStay (.claiming Thread program declared) thread
      (⟨package.name, false⟩ :: rest)) (caller : Context) :
    (station.ensureInitialized package caller).Stays (.claiming Thread program declared) thread
      rest fun _ => True := by
  have ended : ∀ {process : Work (Except Interruption Unit)} {token : List Claim},
      (process.Follows (.claiming Thread program declared) thread token fun _ last => last = rest) →
      process.Follows (.claiming Thread program declared) thread token
        (Effect.Reaches (fun _ last => last = rest ∧ True) fun _ last => last = rest) := by
    intro process token follows
    refine Process.Follows.weaken follows ?_
    rintro (_ | _) _ rfl
    · exact rfl
    · exact ⟨rfl, trivial⟩
  refine ended ?_
  rw [ensureInitialized_eq]
  refine Process.Follows.bind passGate_claims ?_
  rintro phase _ ⟨isAnswered, rfl⟩
  cases phase with
  | answered answer =>
    cases answer with
    | outcome outcome => cases outcome <;> exact rfl
    | claimed =>
      exact Process.Follows.bind (runInit_claims within tasks) fun _ _ ends =>
        closeInit_claims found ends
  | _ => cases isAnswered

end Station

end WorkerMachine
