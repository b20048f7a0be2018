import WorkerMachine.Proofs.Clearance.Hosts
import WorkerMachine.Proofs.Clearance.Refusals
import WorkerMachine.Proofs.Manifest.Bodies
import WorkerMachine.Proofs.Process.Passing
/-!
# The gate of a package

Whatever calls are made on a machine, and however its threads interleave, the init unit of a package
is called at most once, workers of the package start only where the package is initialized or below
the context of the init that is under way, and what an init has come to stays as it is.  So once an
init has failed, no worker of the package starts any more, and every call into the package comes to
the fault of the init.
-/

namespace WorkerMachine

open Clearance

/-- Everything that a manifest declares has been built when it is loaded. -/
theorem Manifest.program_sound {manifest : Manifest} {loaded : Manifest.Loaded}
    (loads : manifest.load = .ok loaded) : loaded.program.Sound := by
  obtain ⟨⟨packages, isProgram, load⟩, _⟩ := of_load loads
  intro name found isFound
  rw [isProgram] at isFound
  obtain ⟨entry, isEntry, loadsEntry⟩ := exists_declaredPackage? load manifest.globals isFound
  have named : found.name = name := by
    have isNamed := List.find?_some isEntry
    rw [loadsEntry.name]
    exact of_decide_eq_true isNamed
  refine ⟨named, ?_⟩
  rintro unit (isInit | ⟨function, isFunction⟩)
  · obtain ⟨declared, _, builds, _⟩ := loadsEntry.init unit isInit
    refine ⟨?_, Callable.sound_of_build builds⟩
    rw [(Callable.builtFrom_of_build builds).package, loadsEntry.name]
    rfl
  · obtain ⟨declared, _, builds, _⟩ := loadsEntry.functions function unit isFunction
    refine ⟨?_, Callable.sound_of_build builds⟩
    rw [(Callable.builtFrom_of_build builds).package, loadsEntry.name]
    rfl

theorem Clearance.Sound.running_of_mark {scene : Scene} {activities : Activities}
    (sound : Sound scene activities) {package : String} {mark : InitMark}
    (marked : scene.mark package = some mark) : scene.stage package = .running := by
  obtain ⟨activity, found, ofInit, _⟩ := sound.inits.marked package mark marked
  obtain ⟨_, _, _, _, _, _, running⟩ := sound.exists_init found ofInit
  exact running

/-! ## What the gate guarantees -/

def Happening.started? : Happening → Option Task
  | .started task => some task
  | .ended _ _ _ | .initCalled _ _ => none

def Task.isOf (task : Task) (package : String) : Bool :=
  task.context.activity.any fun activity => activity.1.package = package

/-- The tasks of the workers of a package that have started, latest first. -/
def Machine.startedOf (machine : Machine) (package : String) : List Task :=
  (machine.history.filterMap Happening.started?).filter fun task => task.isOf package

section Keeping

variable {Answer : Type} {arrivals : Arrivals ThreadId Machine Answer}
  {crowd later : Crowd ThreadId Machine Answer} {package : String}

/-- A permitted step starts workers of a package only where they are admitted. -/
theorem Machine.Permits.startedOf {before after : Machine} (permits : before.Permits after)
    (package : String) :
    ∃ since, after.startedOf package = since ++ before.startedOf package ∧
      ∀ task ∈ since, before.Admits package task.context.id := by
  obtain ⟨since, grows, admitted⟩ := permits.started
  refine ⟨(since.filterMap Happening.started?).filter fun task => task.isOf package, ?_, ?_⟩
  · unfold Machine.startedOf
    rw [grows, List.filterMap_append, List.filter_append]
  · intro task member
    obtain ⟨started, ofPackage⟩ := List.mem_filter.mp member
    obtain ⟨happening, isSince, starts⟩ := List.mem_filterMap.mp started
    obtain ⟨unit, worker, isUnit, samePackage⟩ : ∃ unit worker,
        task.context.activity = some (unit, worker) ∧ unit.package = package := by
      simpa [Task.isOf, Option.any_eq_true] using ofPackage
    cases happening with
    | started other =>
        cases starts
        rw [← samePackage]
        exact admitted task isSince unit worker isUnit
    | _ =>
        cases starts

variable (welcoming : Crowd.Welcoming .clearing [] (fun _ _ _ => True) arrivals)
  (orderly : crowd.Orderly .clearing [] fun _ _ _ => True)

include welcoming orderly

theorem Crowd.outcome_of_leads {outcome : Except Fault Unit}
    (settled : crowd.state.gate.outcome? package = some outcome)
    (leads : crowd.Leads arrivals later) : later.state.gate.outcome? package = some outcome := by
  induction leads with
  | refl =>
      exact settled
  | tail before moved inductionHypothesis =>
      obtain ⟨mover, moved⟩ := moved
      have permitted := ((orderly.leads welcoming before).move welcoming moved).1
      exact permitted.settled package outcome inductionHypothesis

omit welcoming in
/-- In an orderly crowd, nobody runs an init that has ended. -/
theorem Crowd.Orderly.settled {outcome : Except Fault Unit}
    (settled : crowd.state.gate.outcome? package = some outcome) :
    crowd.state.Settled package outcome := by
  obtain ⟨hands, orderlyWith⟩ := orderly
  obtain ⟨activities, sound, _⟩ := orderlyWith.fits
  refine ⟨Option.eq_none_iff_forall_not_mem.mpr fun mark marked => ?_, settled⟩
  have running : crowd.state.gate.stage package = .running := sound.running_of_mark marked
  rw [(Gate.outcome?_eq_some_iff _ _ _).mp settled] at running
  cases running

end Keeping

/-- After a session has started for a loaded manifest, hosts that make calls by name are orderly in the
sense of clearance, and threads that are started for tasks are welcome. -/
theorem Session.clearing {manifest : Manifest} {loaded : Manifest.Loaded}
    (loads : manifest.load = .ok loaded) {setup : Setup} (runs : setup.program = loaded.program)
    (named : setup.policy.NamesThreads) {properties : Properties}
    {constants : List (String × String)} {session : Session}
    (starts : Session.start setup (Script.interpreter loaded.bodies) properties constants =
      .ok session)
    {depth : Nat} {Answer : Type} {crowd : Crowd ThreadId Machine (Option Answer)}
    (fresh : crowd.state = session.machine)
    (hosts : ∀ thread process, crowd.process thread = some process →
      (setup.station (Script.interpreter loaded.bodies) thread depth).CallsByName process) :
    Crowd.Welcoming .clearing [] (fun _ _ _ => True)
        (setup.Starts (Script.interpreter loaded.bodies) depth :
          Arrivals ThreadId Machine (Option Answer)) ∧
      crowd.Orderly .clearing [] fun _ _ _ => True := by
  have sound : setup.program.Sound := by
    rw [runs]
    exact Manifest.program_sound loads
  have clears := Script.interpreter_clears loaded.bodies
  refine ⟨setup.starts_welcoming_clearing named sound clears depth, fun _ => [], ?_, ?_,
    fun _ _ => rfl⟩
  · rw [fresh]
    exact (Session.start_fresh starts).fits
  · intro thread process holds
    have follows : process.Stays .clearing
        (setup.station (Script.interpreter loaded.bodies) thread depth).thread [] fun _ => True :=
      (hosts thread process holds).follows
        (setup.station_runsTasks named sound clears thread depth)
        (by rw [Setup.toSetup_station]; exact named)
        (by rw [Setup.toSetup_station]; exact sound)
    rw [Setup.thread_station] at follows
    exact Process.Follows.weaken follows fun _ _ _ => trivial

/-- A package whose init unit calls a function of another package. -/
def Manifest.callingEntry (package other : String) : Manifest.PackageEntry where
  name := package
  globals := []
  init := some ⟨initUnitName, false, [], [],
    [⟨defaultWorkerName, {}, [.call other "run" [] []]⟩]⟩
  functions := [⟨"run", false, [], [], [⟨defaultWorkerName, {}, [.finish]⟩]⟩]

def Station.callingOnce (station : Station) (machine : Machine) (package function : String) :
    Crowd ThreadId Machine (Option (Except Interruption (List Value))) :=
  ⟨machine, fun thread =>
    if thread = station.thread then
      some ((station.callNamed package function []).run.bind fun outcome => .done (some outcome))
    else none⟩

theorem Station.callsByName_of_callingOnce {station : Station} {machine : Machine}
    {package function : String} {thread : ThreadId}
    {process : Work (Option (Except Interruption (List Value)))}
    (holds : (station.callingOnce machine package function).process thread = some process) :
    thread = station.thread ∧ station.CallsByName process := by
  unfold callingOnce at holds
  dsimp only at holds
  split at holds
  · next isThread =>
    cases holds
    exact ⟨isThread, .called package function [] fun outcome => .ended (some outcome)⟩
  · cases holds

section Hosts

variable (setup : Setup) (interpreter : Interpreter) (depth : Nat) (machine : Machine)
  (package function : String)

theorem Setup.process_callingOnce :
    ((setup.station interpreter Session.hostThread depth).callingOnce machine package
      function).process Session.hostThread =
        some (((setup.station interpreter Session.hostThread depth).callNamed package function
          []).run.bind fun outcome => .done (some outcome)) :=
  if_pos (setup.thread_station interpreter Session.hostThread depth).symm

/-- Whoever makes the one call of the host makes calls by name. -/
theorem Setup.callsByName_of_callingOnce (thread : ThreadId)
    (process : Work (Option (Except Interruption (List Value))))
    (holds : ((setup.station interpreter Session.hostThread depth).callingOnce machine package
      function).process thread = some process) :
    (setup.station interpreter thread depth).CallsByName process := by
  obtain ⟨isHost, calls⟩ := Station.callsByName_of_callingOnce holds
  rw [setup.thread_station] at isHost
  subst isHost
  exact calls

end Hosts

end WorkerMachine
