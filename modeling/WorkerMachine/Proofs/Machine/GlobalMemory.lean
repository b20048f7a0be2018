import WorkerMachine.Proofs.Machine.Surroundings
/-!
# Global memory at the gate

The gate may change as it likes as far as global memory is concerned, so a property of global memory
is kept by every call that passes the gate.
-/

namespace WorkerMachine

def Machine.HoldsGlobals (held : RegisterFile → Prop) (machine : Machine) : Prop :=
  held machine.globals

/-- The discipline that asks nothing but to keep a property of global memory. -/
def Discipline.keepingGlobals (held : RegisterFile → Prop) : Discipline Unit Machine Unit :=
  .keeping Unit (Machine.HoldsGlobals held)

variable {held : RegisterFile → Prop} {Answer : Type}

theorem Discipline.keepingGlobals_tolerates (held : RegisterFile → Prop) :
    (keepingGlobals held).Tolerates () () where
  tolerates := by
    intro machine later hands fits _ sameGlobals _
    refine ⟨trivial, ?_⟩
    change held later.globals
    rw [sameGlobals]
    exact fits
  excuses := fun _ _ _ _ => trivial

theorem alterGate_keeps (change : Gate → Gate) :
    (alterGate change).Keeps (Machine.HoldsGlobals held) fun _ => True :=
  Effect.stays_work (Process.stays_modify (fun _ _ fits _ => ⟨trivial, fits⟩) trivial)

namespace Station

variable {station : Station}

theorem runInit_keeps (tasks : station.TasksStay (.keepingGlobals held) () ()) (package : Package)
    (parent : Context) :
    (station.runInit package parent).Keeps (Machine.HoldsGlobals held) fun _ => True := by
  have tolerance := Discipline.keepingGlobals_tolerates held
  unfold runInit
  split
  · exact resolvePending_stays tolerance package
  · next unit _ =>
    refine Effect.Stays.bind (tally_stays tolerance.mild _) fun _ _ => ?_
    refine Effect.Stays.bind (openChild_stays tolerance.mild parent) fun context _ => ?_
    refine Effect.Stays.followedBy ?_ (release_stays tolerance.mild context)
    have marked : (Effect.modify (Machine.callInit package.name
        ⟨context.id, station.thread⟩)).Keeps (Machine.HoldsGlobals held) fun _ => True :=
      Effect.stays_work (Process.stays_modify (fun _ _ fits _ => ⟨trivial, fits⟩) trivial)
    refine Effect.Stays.bind marked fun _ _ => ?_
    have called : (station.callUnit unit).attempt.Stays (.keepingGlobals held) () () context
        (fun _ => context.SameSizes) context.SameSizes :=
      (callRegisters_stays tolerance.mild tasks unit [] [] context).attempt
    refine Effect.Stays.bind (Effect.stays_work called.run) fun answer _ => ?_
    refine Effect.Stays.bind (Effect.stays_mk fun _ _ => trivial) fun invoked _ => ?_
    refine Effect.Stays.bind (alterGate_keeps _) fun _ _ => ?_
    refine Effect.Stays.bind (Effect.stays_ofExcept fun _ _ => trivial) fun _ _ => ?_
    exact resolvePending_stays tolerance package

theorem advancePhases_keeps (package : String) (caller : ContextId) (bound : Nat)
    (phase : GatePhase) :
    (station.advancePhases package caller bound phase).Keeps (Machine.HoldsGlobals held)
      fun _ => True := by
  induction bound generalizing phase with
  | zero =>
      exact Process.stays_done trivial
  | succ bound inductionHypothesis =>
      cases answered : phase.answer? with
      | some answer =>
          cases phase <;> cases answered
          exact Process.stays_done trivial
      | none =>
          rw [advancePhases_succ station package caller bound answered]
          intro machine _ fits _
          exact ⟨fun _ => ⟨trivial, (), fits, inductionHypothesis _⟩, fun _ => trivial⟩

/-- Whatever happens at the gate and in an init, a property of global memory is kept if the tasks
keep it. -/
theorem ensureInitialized_keeps (tasks : station.TasksStay (.keepingGlobals held) () ()) :
    station.InitsStay (.keepingGlobals held) () () := by
  intro package caller
  have passed : (station.passGate package.name caller.id).Keeps (Machine.HoldsGlobals held)
      fun _ => True :=
    Process.Stays.bind (advancePhases_keeps _ _ _ _) fun _ _ => advancePhases_keeps _ _ _ _
  unfold ensureInitialized
  refine Effect.Stays.bind (Effect.stays_work passed) fun phase _ => ?_
  split
  · exact Effect.stays_throw _
  · exact Effect.stays_ofExcept fun _ _ => trivial
  · have attempted : (station.runInit package caller).attempt.Keeps (Machine.HoldsGlobals held)
        fun _ => True :=
      (runInit_keeps tasks package caller).attempt
    refine Effect.Stays.bind (Effect.Stays.orElseRun attempted ?_) fun outcome _ => ?_
    · exact Process.stays_modify (fun _ _ fits _ => ⟨trivial, fits⟩) trivial
    · refine Effect.Stays.bind (alterGate_keeps _) fun _ _ => ?_
      refine Effect.Stays.bind (alterGate_keeps _) fun _ _ => ?_
      exact Effect.stays_ofExcept fun _ _ => trivial

end Station

/-- A store in global memory keeps whatever stores in register files keep. -/
theorem storeGlobal_keeps
    (closed : ∀ globals slot value after, held globals →
      globals.storeOrKeep slot value = .ok after → held after)
    (slot : Slot) (value : Value) :
    (storeGlobal slot value).Keeps (Machine.HoldsGlobals held) fun _ => True :=
  storeGlobal_stays slot value fun machine _ globals fits _ succeeds =>
    ⟨trivial, closed machine.globals slot value globals fits succeeds⟩

end WorkerMachine
