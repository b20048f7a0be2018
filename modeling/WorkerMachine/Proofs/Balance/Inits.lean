import WorkerMachine.Proofs.Balance.Calls
import WorkerMachine.Proofs.Settling.Inits
/-!
# Inits that are accounted for

A thread that has claimed a package counts its init and settles it.  If the package has an init unit, one
more init has been counted then, and one more package with an init unit has been initialized.
-/

namespace WorkerMachine

open Balance

variable {program : Program} {base machine : Machine} {thread : ThreadId} {token : Hand}
  {station : Station} {parent : Context} {package : Package} {unit : Callable} {name : String}
  {callerTask : Option Task} {rest : List String}

def Package.initSpent (package : Package) : Tallies :=
  { inits := if package.init.isSome then 1 else 0 }

theorem Program.hasInit_iff (isFound : program.package name = .ok package) :
    program.HasInit name ↔ package.init.isSome = true := by
  refine ⟨?_, fun isSome => ⟨package, isFound, isSome⟩⟩
  rintro ⟨other, alsoFound, isSome⟩
  cases isFound.symm.trans alsoFound
  exact isSome

/-! ## Gates -/

theorem Station.passGate_balances {caller : ContextId} :
    (station.passGate name caller).Follows (.balancing program base) thread token
      fun last hand => ∃ answer, last = .answered answer ∧
        hand = token.claim (last.claimed name token.claims) := by
  refine station.passGate_claiming (fun claims => token.claim (if claims then name :: token.claims
    else token.claims)) ?_ ?_ fun _ _ => trivial
  · intro machine gate hands claims fits _ sameStage
    have immaterial : Immaterial machine { machine with gate := gate } :=
      ⟨⟨rfl, Nat.le_refl _, rfl, rfl, sameStage⟩, rfl, rfl⟩
    exact ⟨trivial, immaterial.accounts fits⟩
  · intro machine gate hands fits holding untouched running
    have unsettled : ∀ outcome, machine.gate.stage name ≠ .settled outcome := by
      intro outcome settled
      cases untouched.symm.trans settled
    have sameInits : program.initialized gate = program.initialized machine.gate :=
      Program.initialized_of_unsettled running unsettled fun _ => nofun
    have sameTilt : { machine with gate := gate }.tilt program = machine.tilt program + 0 := by
      rw [add_zero]
      unfold Machine.tilt
      rw [sameInits]
    have claimed : Exchanges program base machine { machine with gate := gate } thread token
        (token.claim (name :: token.claims)) :=
      exchanges_gate (fun hands claimed isToken => (claimed.claim isToken untouched running).2)
        sameInits.ge sameTilt rfl rfl (add_zero _).symm
    exact ⟨trivial, claimed hands fits holding⟩

theorem settleInit_balances (isFound : program.package package.name = .ok package)
    (claims : token.claims = package.name :: rest) (outcome : Except Fault Unit)
    {upset : Interruption → Hand → Prop} :
    (alterGate fun gate => gate.setCell package.name (.settled outcome)).Follows
      (.balancing program base) thread token
      (fun _ last => last = (token.claim rest).add (-package.initSpent.tilt)) upset := by
  refine Effect.follows_accounting_modify fun machine known => ?_
  have running : machine.gate.stage package.name = .running :=
    known.claimed (by rw [claims]; exact List.mem_cons_self)
  have unsettled : ∀ outcome, machine.gate.stage package.name ≠ .settled outcome := by
    intro its settled
    cases running.symm.trans settled
  have changed := machine.gate.stage_setCell package.name (.settled outcome)
  classical
  have counted : (program.initialized (machine.gate.setCell package.name
        (.settled outcome))).ncard =
      (program.initialized machine.gate).ncard + package.initSpent.inits := by
    rw [Program.ncard_initialized_settle changed unsettled]
    simp only [Program.hasInit_iff isFound, Package.initSpent]
  have settled : program.initialized machine.gate ⊆
      program.initialized (machine.gate.setCell package.name (.settled outcome)) := by
    refine Program.initialized_mono fun asked its isSettled => ?_
    rw [Gate.outcome?_eq_some_iff] at isSettled ⊢
    rw [changed, Function.update_of_ne]
    · exact isSettled
    · rintro rfl
      exact unsettled its isSettled
  have tilted : { machine with
        gate := machine.gate.setCell package.name (.settled outcome) }.tilt program =
      machine.tilt program + -package.initSpent.tilt := by
    unfold Machine.tilt
    unfold Tallies.tilt Package.initSpent at *
    rw [counted, neg_tilt, tilt_add]
    push_cast
    congr 1 <;> omega
  refine exchanges_gate (fun hands claimed isToken => ?_) settled tilted rfl rfl rfl
  exact (claimed.release (isToken.trans claims) changed).2

/-! ## Running an init -/

/-- Constants are of no concern to what is counted, and only a fault keeps them from being resolved. -/
theorem resolvePending_balances (package : Package) :
    (resolvePending package).Follows (.balancing program base) thread token
      (fun _ last => last = token)
      fun interruption last => (∃ fault, interruption = .fault fault) ∧ last = token := by
  have taken : (Effect.atomically (Machine.takePending package.name)).Follows
      (.balancing program base) thread token (fun _ last => last = token)
      fun interruption last => (∃ fault, interruption = .fault fault) ∧ last = token :=
    Effect.follows_accounting fun machine _ =>
      have immaterial : Immaterial machine (machine.takePending package.name).2 :=
        ⟨⟨rfl, Nat.le_refl _, rfl, rfl, rfl⟩, rfl, rfl⟩
      ⟨token, immaterial.exchanges, rfl⟩
  have looked : ∀ waiting, (Effect.read fun machine =>
        readConstants package machine.globals waiting).Follows (.balancing program base) thread token
      (fun _ last => last = token)
      fun interruption last => (∃ fault, interruption = .fault fault) ∧ last = token :=
    fun _ => Effect.follows_read fun _ _ _ _ => rfl
  unfold resolvePending
  refine taken.bind ?_
  rintro waiting last isToken
  rw [isToken]
  refine (looked waiting).bind ?_
  rintro constants last isToken
  rw [isToken]
  split
  · next values =>
    refine Effect.immaterial_modify fun machine => ?_
    obtain ⟨resolved, isResolved⟩ := machine.exists_resolveConstants values
    rw [isResolved]
    exact ⟨⟨rfl, Nat.le_refl _, rfl, rfl, rfl⟩, rfl, rfl⟩
  · refine Effect.Follows.bind (Effect.immaterial_modify fun machine =>
      ⟨⟨rfl, Nat.le_refl _, rfl, rfl, rfl⟩, rfl, rfl⟩) ?_
    rintro _ last isToken
    rw [isToken]
    exact Effect.follows_fail ⟨⟨_, rfl⟩, rfl⟩

theorem openChild_balances (isOwn : parent.arena = Machine.ownArena)
    {upset : Interruption → Hand → Prop} :
    parent.openChild.Follows (.balancing program base) thread token
      (fun context last => context.arena = Machine.ownArena ∧ token.held context.id = none ∧
        base.state? context.id = none ∧
          last = token.hold context.id (some ⟨.running, none⟩)) upset := by
  unfold Context.openChild
  refine (registerContext_balances isOwn _).bind ?_
  rintro id _ ⟨isFree, isNew, rfl⟩
  exact ⟨isOwn, isFree, isNew, rfl⟩

theorem openRoot_balances {properties : PropertiesKey} {upset : Interruption → Hand → Prop} :
    (openRoot Machine.ownArena properties).Follows (.balancing program base) thread token
      (fun root last => root.arena = Machine.ownArena ∧ token.held root.id = none ∧
        base.state? root.id = none ∧ last = token.hold root.id (some ⟨.running, none⟩)) upset := by
  unfold openRoot
  refine (registerContext_balances rfl _).bind ?_
  rintro id _ ⟨isFree, isNew, rfl⟩
  exact ⟨rfl, isFree, isNew, rfl⟩

theorem callInit_balances (mark : InitMark) {upset : Interruption → Hand → Prop} :
    (Effect.modify (Machine.callInit name mark)).Follows (.balancing program base) thread token
      (fun _ last => last = token) upset := by
  refine Effect.follows_accounting_modify fun machine _ => ?_
  have marked : Immaterial machine { machine with gate := machine.gate.mark name mark } :=
    ⟨⟨rfl, Nat.le_refl _, rfl, rfl, rfl⟩, rfl, rfl⟩
  have noted := @exchanges_record program base thread token
    { machine with gate := machine.gate.mark name mark } (.initCalled name mark.context)
  rw [show Happening.tilt (.initCalled name mark.context) = 0 from rfl, Hand.add_zero] at noted
  exact marked.exchanges.trans noted

namespace Station

section Inits

variable (tasks : station.BalancesTasks program base) (sound : program.Sound)
  (named : station.policy.NamesThreads) (accepts : ¬station.policy.TurnsAway)

include tasks sound named accepts

/-- A call without arguments and results is interrupted only by faults. -/
theorem callUnit_balances (declared : program.Declares unit) {context : Context}
    (isOwn : context.arena = Machine.ownArena)
    (runs : token.held context.id = some ⟨.running, callerTask⟩) :
    (station.callUnit unit).attempt.Follows (.balancing program base) station.thread context token
      (fun _ _ last => last = token) fun _ _ _ => False := by
  refine Routine.Follows.attempt ((callRegisters_balances tasks sound named accepts declared isOwn runs
    [] [] fun _ => unit.seedsAll_nil _).weaken (fun _ _ _ reached => reached.2.2) ?_)
  rintro _ _ _ ⟨⟨fault, rfl⟩ | asked, _, _, isToken⟩
  · exact isToken
  · exact absurd rfl asked

/-- The body of an init is carried out in a context of its own, and only a fault interrupts the init. -/
theorem initUnit_balances (declared : program.Declares unit) {context : Context}
    (isOwn : context.arena = Machine.ownArena)
    (runs : token.held context.id = some ⟨.running, callerTask⟩) :
    Effect.Follows (.balancing program base) station.thread (do
        Effect.modify (Machine.callInit package.name ⟨context.id, station.thread⟩)
        let (outcome, after) ← ((station.callUnit unit).attempt.runOn context : Work _)
        let invoked ← ExceptT.mk (pure outcome)
        alterGate fun gate => gate.unmark package.name
        Effect.ofExcept (initOutcome station.traceStyle package.name after.error invoked)
        resolvePending package)
      token (fun _ last => last = token)
      fun interruption last => (∃ fault, interruption = .fault fault) ∧ last = token := by
  have unmarked : (alterGate fun gate => gate.unmark package.name).Follows
      (.balancing program base) station.thread token (fun _ last => last = token)
      fun interruption last => (∃ fault, interruption = .fault fault) ∧ last = token :=
    Effect.immaterial_modify fun machine => ⟨⟨rfl, Nat.le_refl _, rfl, rfl, rfl⟩, rfl, rfl⟩
  have judged : ∀ outcome : Except Fault Unit, (Effect.ofExcept outcome).Follows
      (.balancing program base) station.thread token (fun _ last => last = token)
      fun interruption last => (∃ fault, interruption = .fault fault) ∧ last = token :=
    fun outcome => Effect.follows_ofExcept (fun _ _ => rfl) fun fault _ => ⟨⟨fault, rfl⟩, rfl⟩
  refine Effect.Follows.bind (callInit_balances _) ?_
  rintro _ last isLast
  rw [isLast]
  refine Effect.Follows.bind (Effect.follows_work
    (callUnit_balances tasks sound named accepts declared isOwn runs)) ?_
  rintro ⟨_ | invoked, after⟩ last reached
  · exact reached.elim
  rw [show last = token from reached]
  refine unmarked.bind ?_
  rintro _ last isLast
  rw [isLast]
  refine (judged _).bind ?_
  rintro _ last isLast
  rw [isLast]
  exact resolvePending_balances package

/-- An init is counted if there is an init unit, and only a fault interrupts it. -/
theorem runInit_balances (isFound : program.package name = .ok package)
    (isOwn : parent.arena = Machine.ownArena) :
    (station.runInit package parent).Follows (.balancing program base) station.thread token
      (fun _ last => last = token.add package.initSpent.tilt)
      fun interruption last => (∃ fault, interruption = .fault fault) ∧
        last = token.add package.initSpent.tilt := by
  unfold runInit
  split
  · next isInit =>
    have nothing : package.initSpent.tilt = 0 := by
      unfold Package.initSpent
      rw [isInit]
      exact tilt_zero
    rw [nothing, Hand.add_zero]
    exact resolvePending_balances package
  · next unit isInit =>
    have declared : program.Declares unit := ⟨name, package, isFound, .inl isInit⟩
    have spent : package.initSpent = { inits := 1 } := by
      unfold Package.initSpent
      rw [isInit]
      rfl
    rw [spent]
    refine Effect.Follows.bind (tally_balances { inits := 1 } fun _ => rfl) ?_
    rintro _ last isLast
    rw [isLast]
    generalize token.add (Tallies.tilt { inits := 1 }) = counted
    refine Effect.Follows.bind (openChild_balances isOwn) ?_
    rintro context _ ⟨contextOwn, isFree, isNew, rfl⟩
    have released : context.release.Follows (.balancing program base) station.thread
        (counted.hold context.id (some ⟨.running, none⟩)) fun _ last => last = counted := by
      refine (release_balances contextOwn (Hand.held_hold_self ..) isNew).weaken ?_
      rintro _ _ rfl
      rw [Hand.hold_hold, Hand.hold_eq_self isFree]
    refine Effect.Follows.followedBy (initUnit_balances tasks sound named accepts declared contextOwn
      (Hand.held_hold_self ..)) ?_
    rintro (_ | _) last reached
    · rw [reached.2]
      exact released.weaken fun _ _ isCounted => ⟨reached.1, isCounted⟩
    · rw [show last = _ from reached]
      exact released

/-- A thread that has made sure of a package has in hand what it had before. -/
theorem ensureInitialized_balances (isFound : program.package package.name = .ok package)
    (isOwn : parent.arena = Machine.ownArena) :
    (station.ensureInitialized package parent).Stays (.balancing program base) station.thread token
      fun _ => True := by
  unfold ensureInitialized
  refine Effect.Follows.bind (Effect.follows_work passGate_balances) ?_
  rintro _ _ ⟨answer, rfl, rfl⟩
  cases answer with
  | outcome outcome => exact Effect.stays_ofExcept fun _ _ => trivial
  | claimed =>
    have attempted : (station.runInit package parent).attempt.Follows (.balancing program base)
        station.thread (token.claim (package.name :: token.claims))
        (fun _ last => last = (token.claim (package.name :: token.claims)).add
          package.initSpent.tilt) fun _ _ => False := by
      refine Effect.Follows.attempt ((runInit_balances tasks sound named accepts isFound
        isOwn).weaken (fun _ _ => id) ?_)
      rintro _ _ ⟨⟨fault, rfl⟩, reached⟩
      exact reached
    refine Effect.Follows.bind attempted.orElseRun_of_never ?_
    rintro outcome _ rfl
    refine Effect.Follows.bind (settleInit_balances isFound rfl outcome) ?_
    rintro _ last isLast
    have isToken : last = token := by
      rw [isLast, ← Hand.claim_add, Hand.add_add, add_neg_cancel, Hand.add_zero]
      rfl
    rw [isToken]
    refine Effect.Follows.bind (Effect.immaterial_modify fun machine =>
      ⟨⟨rfl, Nat.le_refl _, rfl, rfl, rfl⟩, rfl, rfl⟩) ?_
    rintro _ last isLast
    rw [isLast]
    exact Effect.stays_ofExcept fun _ _ => trivial

/-- A call by name leaves the thread with what it had in hand before. -/
theorem callNamedIn_balances (isOwn : parent.arena = Machine.ownArena)
    (runs : token.held parent.id = some ⟨.running, callerTask⟩) (isProgram : station.program = program)
    (name function : String) (arguments : List Value) :
    (station.callNamedIn parent name function arguments).Stays (.balancing program base)
      station.thread token fun _ => True := by
  unfold callNamedIn
  have packageFound : (Effect.ofExcept (station.program.package name)).Stays (.balancing program base)
      station.thread token fun package => program.package name = .ok package :=
    Effect.stays_ofExcept fun package isFound => isProgram ▸ isFound
  have unitFound : ∀ package, (Effect.ofExcept (Program.function package name function)).Stays
      (.balancing program base) station.thread token fun unit =>
        Program.function package name function = .ok unit :=
    fun package => Effect.stays_ofExcept fun unit isUnit => isUnit
  refine packageFound.bind fun package isFound => ?_
  refine (unitFound package).bind fun unit isUnit => ?_
  refine Effect.Stays.bind (Effect.stays_ofExcept fun _ _ => trivial) fun _ _ => ?_
  have isNamed : program.package package.name = .ok package := by
    rw [(sound name package isFound).1]
    exact isFound
  refine Effect.Stays.bind (ensureInitialized_balances tasks sound named accepts isNamed isOwn)
    fun _ _ => ?_
  exact callValues_balances tasks sound named accepts (.of_function isFound isUnit) isOwn runs
    arguments

/-- A call by name from a root of its own leaves the thread with what it had in hand before. -/
theorem callNamed_balances (isProgram : station.program = program) (name function : String)
    (arguments : List Value) :
    (station.callNamed name function arguments).Stays (.balancing program base) station.thread token
      fun _ => True := by
  unfold callNamed
  refine Effect.Follows.bind openRoot_balances ?_
  rintro root _ ⟨isOwn, isFree, isNew, rfl⟩
  refine Effect.Follows.followedBy (callNamedIn_balances tasks sound named accepts isOwn
    (Hand.held_hold_self ..) isProgram name function arguments) fun outcome last reached => ?_
  have isLast : last = token.hold root.id (some ⟨.running, none⟩) := by
    cases outcome with
    | ok _ => exact reached.1
    | error _ => exact reached
  rw [isLast]
  refine (release_balances isOwn (Hand.held_hold_self ..) isNew).weaken ?_
  rintro _ _ rfl
  rw [Hand.hold_hold, Hand.hold_eq_self isFree]
  cases outcome with
  | ok _ => exact ⟨rfl, trivial⟩
  | error _ => rfl

end Inits

end Station

end WorkerMachine
