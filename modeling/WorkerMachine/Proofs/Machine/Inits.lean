import WorkerMachine.Proofs.Machine.Effects
import WorkerMachine.Machine.Initialization
/-!
# The parts of an init

An init opens a context, calls the init unit on it, resolves the constants of the package and releases
the context.  A call that has claimed a package runs the init and closes it: it settles what the init
has come to, or gives the package back if the init was broken off.
-/

namespace WorkerMachine

namespace Effect

variable {First Second : Type}

theorem run_work_bind (work : Work First) (follow : First → Effect Second) :
    ((liftM work : Effect First) >>= follow).run = work.bind fun answer => (follow answer).run := by
  rw [run_bind]
  change (work.bind _).bind _ = _
  rw [Process.bind_assoc]
  rfl

theorem run_followedBy (effect : Effect First) (cleanup : Work Unit) :
    (effect.followedBy cleanup).run =
      effect.run.bind fun outcome => cleanup.bind fun _ => .done outcome :=
  rfl

end Effect

namespace Station

variable {station : Station} {package : Package} {parent : Context} {unit : Callable}

/-- Every phase that a passage goes through brings it nearer to its answer, whatever the maps of the
gate hold by then. -/
theorem advancePhases_endsOnly (station : Station) (name : String) (caller : ContextId) (bound : Nat)
    (phase : GatePhase) :
    (station.advancePhases name caller bound phase).EndsOnly fun last =>
      last.untilCounted ≤ phase.untilCounted - bound ∧
        (phase.untilCounted = 0 → last.untilAnswered ≤ phase.untilAnswered - bound) := by
  induction bound generalizing phase with
  | zero => exact ⟨Nat.le_refl _, fun _ => Nat.le_refl _⟩
  | succ bound inductionHypothesis =>
    cases answered : phase.answer? with
    | some answer =>
      cases phase <;> cases answered
      exact ⟨Nat.zero_le _, fun _ => Nat.zero_le _⟩
    | none =>
      rw [advancePhases_succ station name caller bound answered]
      intro machine
      dsimp only
      generalize (fun context : ContextId =>
        ((machine.arena Machine.ownArena).ancestry caller).contains context) = descends
      have counted := phase.untilCounted_advance station.thread name descends machine.gate
      have nearer := phase.untilAnswered_advance station.thread name descends machine.gate
      refine (inductionHypothesis _).weaken fun last reached => ?_
      obtain ⟨nearCount, nearAnswer⟩ := reached
      refine ⟨by omega, fun isCounted => ?_⟩
      have nearerNow := nearer isCounted
      have fewer := nearAnswer (by omega)
      omega

/-- A passage ends with an answer of the gate. -/
theorem passGate_endsOnly (station : Station) (name : String) (caller : ContextId) :
    (station.passGate name caller).EndsOnly fun last => ∃ answer, last = .answered answer := by
  refine (station.advancePhases_endsOnly name caller 6 .lookForMark).bind ?_
  rintro middle ⟨nearCount, _⟩
  have isCounted : middle.untilCounted = 0 := Nat.le_zero.mp nearCount
  refine (station.advancePhases_endsOnly name caller _ middle).weaken ?_
  rintro last ⟨stillCounted, nearAnswer⟩
  have nearEnd := nearAnswer isCounted
  have isAnswered : last.answer?.isSome = true :=
    GatePhase.isSome_answer?_of_done (by omega) (by omega)
  obtain ⟨answer, isAnswer⟩ := Option.isSome_iff_exists.mp isAnswered
  cases last <;> cases isAnswer
  exact ⟨answer, rfl⟩

def openInit (station : Station) (package : Package) (parent : Context) : Work Context := do
  Process.modify fun machine => { machine with tallies := machine.tallies.addInit }
  let id ← Process.atomically
    (Machine.inArena parent.arena fun records =>
      records.register ⟨some parent.id, .running, Arena.rootLabel⟩)
  Process.modify (Machine.callInit package.name ⟨id, station.thread⟩)
  return .root id (some parent.id) parent.arena parent.properties

def finishInit (station : Station) (package : Package)
    (called : Except Interruption (Except Fault Unit) × Context) : Effect Unit := do
  let invoked ← ExceptT.mk (pure called.1)
  alterGate fun gate => gate.unmark package.name
  Effect.ofExcept (initOutcome station.traceStyle package.name called.2.error invoked)
  resolvePending package

/-- Settle what an init has come to, and end with it. -/
def settleInit (station : Station) (package : Package) (outcome : Except Fault Unit) :
    Effect Unit := do
  alterGate fun gate => gate.setCell package.name (.settled outcome)
  alterGate fun gate => gate.withdraw station.thread
  Effect.ofExcept outcome

def closeInit (station : Station) (package : Package) :
    Except Interruption Unit → Work (Except Interruption Unit)
  | .ok _ => (station.settleInit package (.ok ())).run
  | .error (.fault fault) => (station.settleInit package (.error fault)).run
  | .error interruption =>
    (Process.modify fun machine =>
      { machine with gate := machine.gate.setCell package.name .untouched }).bind fun _ =>
        .done (.error interruption)

theorem runInit_eq (isInit : package.init = some unit) :
    (station.runInit package parent).run =
      (station.openInit package parent).bind fun context =>
        ((station.callUnit unit).attempt.runOn context).bind fun called =>
          (Effect.followedBy (station.finishInit package called) context.release).run := by
  have called : ∀ context : Context,
      (Effect.followedBy ((liftM ((station.callUnit unit).attempt.runOn context) :
          Effect (Except Interruption (Except Fault Unit) × Context)) >>=
            station.finishInit package) context.release).run =
        ((station.callUnit unit).attempt.runOn context).bind fun called =>
          (Effect.followedBy (station.finishInit package called) context.release).run := by
    intro context
    rw [Effect.run_followedBy, Effect.run_work_bind, Process.bind_assoc]
    rfl
  have opened : (station.runInit package parent).run =
      (station.openInit package parent).bind fun context =>
        (Effect.followedBy ((liftM ((station.callUnit unit).attempt.runOn context) :
            Effect (Except Interruption (Except Fault Unit) × Context)) >>=
              station.finishInit package) context.release).run := by
    unfold runInit
    rw [isInit]
    rfl
  rw [opened]
  exact congrArg _ (funext called)

theorem finishInit_eq (invoked : Except Fault Unit) (after : Context) :
    (station.finishInit package (.ok invoked, after)).run =
      (Process.modify fun machine =>
        { machine with gate := machine.gate.unmark package.name }).bind fun _ =>
          match initOutcome station.traceStyle package.name after.error invoked with
          | .ok _ => (resolvePending package).run
          | .error fault => .done (.error (.fault fault)) := by
  have unmarked : station.finishInit package (.ok invoked, after) = (do
        alterGate fun gate => gate.unmark package.name
        Effect.ofExcept (initOutcome station.traceStyle package.name after.error invoked)
        resolvePending package) :=
    rfl
  rw [unmarked]
  generalize initOutcome station.traceStyle package.name after.error invoked = outcome
  cases outcome <;> rfl

theorem settleInit_eq (outcome : Except Fault Unit) :
    (station.settleInit package outcome).run =
      (Process.modify fun machine =>
        { machine with gate := machine.gate.setCell package.name (.settled outcome) }).bind fun _ =>
          (Process.modify fun machine =>
            { machine with gate := machine.gate.withdraw station.thread }).bind fun _ =>
              .done (outcome.mapError .fault) := by
  cases outcome <;> rfl

theorem ensureInitialized_eq (caller : Context) :
    (station.ensureInitialized package caller).run =
      (station.passGate package.name caller.id).bind fun phase =>
        match phase.answer? with
        | none => .done (.error .exhausted)
        | some (.outcome outcome) => (Effect.ofExcept outcome).run
        | some .claimed =>
          (station.runInit package caller).run.bind fun ran => station.closeInit package ran := by
  unfold ensureInitialized
  rw [Effect.run_work_bind]
  refine congrArg _ (funext fun phase => ?_)
  generalize phase.answer? = answer
  cases answer with
  | none => rfl
  | some answer =>
    cases answer with
    | outcome outcome => rfl
    | claimed =>
      dsimp only
      rw [Effect.run_bind]
      change (((station.runInit package caller).run.bind _).bind _).bind _ = _
      rw [Process.bind_assoc, Process.bind_assoc]
      refine congrArg _ (funext fun ran => ?_)
      rcases ran with (fault | _ | _) | _ <;> rfl

end Station

end WorkerMachine
