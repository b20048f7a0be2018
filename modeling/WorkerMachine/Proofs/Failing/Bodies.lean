import WorkerMachine.Proofs.Clearance.Gatekeeping
import WorkerMachine.Proofs.Failing.Joining
import WorkerMachine.Proofs.Script.Rejection
/-!
# Bodies that call and fail

The body of a worker carries out one instruction after the other.  A call reaches the unit that it
calls, makes the call, and goes on with what the call has answered.  When the body has ended, its
contribution is handed in, and what it ended with is noted.
-/

namespace WorkerMachine

open Settling

/-! ## The end of a body -/

/-- Bring the context of a task whose body has ended to its last state, and hand in what it comes to. -/
def Task.conclude (task : Task) (ended : Except Interruption WorkerExit × Context) :
    Effect ContextState := do
  let last := (judge ended.2 ended.1).lastState
  Effect.modify (Machine.alterArena ended.2.arena fun records => records.finish ended.2.id last)
  let _ ← Effect.ofAccess (← Effect.atomically (Machine.endTask task ended.1 ended.2))
  return last

/-- A task is begun, its body is carried out, and the task is concluded. -/
theorem Station.carryOut_eq (station : Station) (interpreter : Interpreter) (task : Task) :
    station.carryOut interpreter task = Effect.followedBy (do
        match ← Effect.atomically (Machine.startTask task) with
        | .error fault =>
          let _ ← contributeTo task.response task.context.id (.faulted fault) task.context.results
          return .failed
        | .ok _ =>
          let ended ← ((interpreter station).runOn task.context : Work _)
          task.conclude ended)
      task.context.release :=
  rfl

section Concluding

variable {Answer : Type} {arrivals : Arrivals ThreadId Machine (Option Answer)} {thread : ThreadId}
  {crowd later : Crowd ThreadId Machine (Option Answer)} {task : Task}

/-- What a machine has gone through stays in its history. -/
theorem Crowd.KeepsBooks.history (keeps : crowd.KeepsBooks arrivals)
    (leads : crowd.Leads arrivals later) {happening : Happening}
    (happened : happening ∈ crowd.state.history) : happening ∈ later.state.history :=
  (advances_of_leads keeps.welcoming keeps.settling leads).history.subset happened

theorem Crowd.KeepsBooks.ended_of_concluded (keeps : crowd.KeepsBooks arrivals)
    {ended : Except Interruption WorkerExit × Context}
    {follow : Except Interruption ContextState → Work (Option Answer)}
    {left : Except Interruption ContextState}
    (passes : Crowd.Passes arrivals thread follow left later (task.conclude ended).run crowd) :
    .ended task ended.1 ended.2 ∈ later.state.history := by
  unfold Task.conclude at passes
  rw [Effect.run_bind] at passes
  obtain ⟨finished, between, passesFinish, passes⟩ := passes.exists_between
  obtain ⟨_, rfl, _⟩ := passesFinish.of_view rfl
  dsimp only at passes
  rw [Effect.run_bind] at passes
  obtain ⟨_, contributed, passesEnd, passesOn⟩ := passes.exists_between
  obtain ⟨_, rfl, passesStep⟩ := passesEnd.of_view rfl
  obtain ⟨moment, taken, _, leads, after, isTaken⟩ := passesStep.exists_taken
  have keepsTaken := (keeps.leads passesFinish.leads).leads leads
  apply keepsTaken.history (after.trans passesOn.leads)
  rw [isTaken]
  exact List.mem_cons_self

end Concluding

/-! ## The calls of a script -/

namespace Script

/-- Find the unit that a script calls from a context, and make sure that its package is initialized. -/
def reachCall (station : Station) (context : Context) (package function : String)
    (returns : List Nat) : Effect Callable := do
  let found ← Effect.ofExcept (station.program.package package)
  let unit ← Effect.ofExcept (Program.function found package function)
  if unit.returns.length < returns.length then
    throw (.fault (.arityMismatch unit.qualifiedName unit.returns.length returns.length))
  station.ensureInitialized found context
  return unit

def goOn (station : Station) (instructions : List Instruction) :
    Except Interruption Unit × Context → Work (Except Interruption WorkerExit × Context)
  | (.ok _, context) => (carryOutAll station instructions).runOn context
  | (.error interruption, context) => .done (.error interruption, context)

def request (unit : Callable) (context : Context) (arguments : List Nat) : Request :=
  ⟨unit, context, context.locals, arguments, true⟩

theorem runOn_callFunction_eq (station : Station) (package function : String)
    (arguments returns : List Nat) (context : Context) :
    (callFunction station package function arguments returns).runOn context =
      (reachCall station context package function returns).run.bind fun
        | .ok unit => (station.callRegisters unit arguments returns).runOn context
        | .error interruption => .done (.error interruption, context) := by
  cases isPackage : station.program.package package with
  | error fault =>
    unfold callFunction reachCall
    rw [isPackage]
    rfl
  | ok found =>
    have packageFound : Effect.ofExcept (station.program.package package) = pure found := by
      rw [isPackage]
      rfl
    cases isFunction : Program.function found package function with
    | error fault =>
      unfold callFunction reachCall
      rw [packageFound, pure_bind, Routine.runOn_bind, Routine.runOn_effect, ExceptT.run_pure,
        Process.pure_eq_done, Process.done_bind, Process.done_bind]
      dsimp only
      rw [isFunction]
      rfl
    | ok unit =>
      have functionFound : Effect.ofExcept (Program.function found package function) =
          pure unit := by
        rw [isFunction]
        rfl
      rw [runOn_callFunction isPackage isFunction]
      unfold reachCall
      rw [packageFound, pure_bind, functionFound, pure_bind]
      split
      · rfl
      · rw [Effect.run_bind]
        change _ = Process.bind (Process.bind _ _) _
        rw [Process.bind_assoc]
        congr 1
        funext outcome
        cases outcome <;> rfl

/-- A body that calls reaches the unit, makes the call, and goes on with the answer. -/
theorem runOn_callFirst (station : Station) (package function : String)
    (arguments returns : List Nat) (instructions : List Instruction) (context : Context) :
    (carryOutAll station (.call package function arguments returns :: instructions)).runOn context =
      (reachCall station context package function returns).run.bind fun
        | .ok unit =>
          (station.invokeInSteps (request unit context arguments) 0 context.locals
            returns).run.bind fun answer =>
              goOn station instructions (context.receiveStepwise answer)
        | .error interruption => .done (.error interruption, context) := by
  have called : (carryOutAll station (.call package function arguments returns ::
      instructions)).runOn context =
        ((callFunction station package function arguments returns).runOn context).bind
          (goOn station instructions) := by
    unfold carryOutAll carryOut
    rw [bind_assoc, Routine.runOn_bind]
    congr 1
    funext answer
    obtain ⟨outcome, after⟩ := answer
    cases outcome <;> rfl
  rw [called, runOn_callFunction_eq, Process.bind_assoc]
  congr 1
  funext reached
  cases reached with
  | error interruption => rfl
  | ok unit =>
    dsimp only
    rw [Station.callRegisters_eq_invokeInSteps, Process.bind_assoc]
    rfl

end Script

/-! ## Units of a program -/

/-- The workers of every unit of a package are told apart. -/
def Package.Numbered (package : Package) : Prop :=
  ∀ unit, (package.init = some unit ∨ ∃ name, package.functions.get? name = some unit) →
    unit.workers.Nodup

/-- Every package of a program is sound, and the workers of its units are told apart. -/
structure Program.WellBuilt (program : Program) : Prop where
  sound : program.Sound
  numbered : ∀ name found, program.package name = .ok found → found.Numbered

theorem Package.Numbered.of_function {package : Package} (numbered : package.Numbered)
    {packageName name : String} {unit : Callable}
    (found : Program.function package packageName name = .ok unit) : unit.workers.Nodup := by
  unfold Program.function at found
  split at found
  · next isFunction =>
    cases found
    exact numbered unit (.inr ⟨name, isFunction⟩)
  · cases found

theorem Manifest.program_wellBuilt {manifest : Manifest} {loaded : Manifest.Loaded}
    (loads : manifest.load = .ok loaded) : loaded.program.WellBuilt where
  sound := Manifest.program_sound loads
  numbered := by
    obtain ⟨⟨packages, isProgram, load⟩, _⟩ := of_load loads
    intro name found isFound
    rw [isProgram] at isFound
    obtain ⟨entry, _, loadsEntry⟩ := exists_declaredPackage? load manifest.globals isFound
    rintro unit (isInit | ⟨function, isFunction⟩)
    · obtain ⟨_, _, builds, _⟩ := loadsEntry.init unit isInit
      exact Callable.nodup_of_build builds
    · obtain ⟨_, _, builds, _⟩ := loadsEntry.functions function unit isFunction
      exact Callable.nodup_of_build builds

theorem Program.WellBuilt.of_found {program : Program} (wellBuilt : program.WellBuilt)
    {packageName name : String} {found : Package} {unit : Callable}
    (isPackage : program.package packageName = .ok found)
    (isFunction : Program.function found packageName name = .ok unit) :
    unit.Sound ∧ unit.workers.Nodup :=
  ⟨((wellBuilt.sound _ _ isPackage).2.of_function isFunction).2,
    (wellBuilt.numbered _ _ isPackage).of_function isFunction⟩

section Reaching

variable {Answer First Second : Type} {arrivals : Arrivals ThreadId Machine (Option Answer)}
  {thread : ThreadId} {crowd later : Crowd ThreadId Machine (Option Answer)}
  {follow : Except Interruption Second → Work (Option Answer)} {answer : Second}

/-- A thread that comes to an answer has not been interrupted before. -/
theorem Crowd.Passes.of_ok {effect : Effect First} {next : First → Effect Second}
    (passes : Crowd.Passes arrivals thread follow (.ok answer) later (effect >>= next).run crowd) :
    ∃ first between, crowd.Leads arrivals between ∧
      Crowd.Passes arrivals thread follow (.ok answer) later (next first).run between := by
  rw [Effect.run_bind] at passes
  obtain ⟨outcome, between, passesFirst, passesOn⟩ := passes.exists_between
  cases outcome with
  | error interruption => cases passesOn.eq_of_done
  | ok first => exact ⟨first, between, passesFirst.leads, passesOn⟩

theorem Crowd.Passes.of_ofExcept {found : Except Fault First} {next : First → Effect Second}
    (passes : Crowd.Passes arrivals thread follow (.ok answer) later
      (Effect.ofExcept found >>= next).run crowd) :
    ∃ first, found = .ok first ∧
      Crowd.Passes arrivals thread follow (.ok answer) later (next first).run crowd := by
  cases found with
  | error fault =>
    have failed : Crowd.Passes arrivals thread follow (.ok answer) later
        (.done (.error (.fault fault))) crowd :=
      passes
    cases failed.eq_of_done
  | ok first => exact ⟨first, rfl, passes⟩

theorem Script.wellBuilt_of_reached {station : Station} {context : Context}
    {package function : String} {returns : List Nat} {unit : Callable}
    {follow : Except Interruption Callable → Work (Option Answer)}
    (wellBuilt : station.program.WellBuilt)
    (passes : Crowd.Passes arrivals thread follow (.ok unit) later
      (reachCall station context package function returns).run crowd) :
    unit.Sound ∧ unit.workers.Nodup := by
  unfold reachCall at passes
  obtain ⟨found, isPackage, passes⟩ := passes.of_ofExcept
  obtain ⟨reached, isFunction, passes⟩ := passes.of_ofExcept
  have isUnit : reached = unit := by
    split at passes
    · cases passes.eq_of_done
    · obtain ⟨_, _, _, passesLast⟩ := passes.of_ok
      exact Except.ok.inj passesLast.eq_of_done
  rw [isUnit] at isFunction
  exact wellBuilt.of_found isPackage isFunction

end Reaching

end WorkerMachine
