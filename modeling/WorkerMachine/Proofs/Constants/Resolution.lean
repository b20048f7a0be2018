import WorkerMachine.Proofs.Clearance.Gatekeeping
import WorkerMachine.Proofs.Constants.Deferring
import WorkerMachine.Proofs.Constants.Resolving
import WorkerMachine.Proofs.Manifest.Bodies
import WorkerMachine.Proofs.Process.Passing
/-!
# The resolution of constants

The constants of a package resolve if and only if they are well declared, whatever has been stored in
global memory before: whoever runs the init of the package resolves all constants that the session was
given for it, or comes to the offence of the first one that is not well declared.
-/

namespace WorkerMachine

open Clearance ConstantAttribute

variable {Answer : Type}

/-- A thread comes to the end of an init because the init unit of the package has failed on the way. -/
def Crowd.InitFails (arrivals : Arrivals ThreadId Machine Answer) (thread : ThreadId)
    (station : Station) (package : Package) (crowd later : Crowd ThreadId Machine Answer)
    (outcome : Except Interruption Unit) : Prop :=
  ∃ unit context called follow begun ended,
    package.init = some unit ∧ crowd.Leads arrivals begun ∧
      Crowd.Passes arrivals thread follow called ended
        ((station.callUnit unit).attempt.runOn context) begun ∧
      ended.Leads arrivals later ∧
      outcome.isOk = false ∧ station.unitOutcome package called = outcome

/-- A thread has passed the gate of a package, and is to run the init. -/
def Crowd.Claims (arrivals : Arrivals ThreadId Machine Answer) (thread : ThreadId)
    (station : Station) (package : Package) (caller : Context)
    (crowd claimed : Crowd ThreadId Machine Answer) : Prop :=
  ∃ phase follow, phase.answer? = some .claimed ∧
    Crowd.Passes arrivals thread follow phase claimed (station.passGate package.name caller.id) crowd

/-- The constants of a package in a crowd are resolved as they are declared. -/
structure Crowd.ResolvesConstants (setup : Setup) (interpreter : Interpreter)
    (arrivals : Arrivals ThreadId Machine Answer) (crowd : Crowd ThreadId Machine Answer)
    (package : Package) (constants : List ConstantAttribute) : Prop where
  /-- What is stored in global memory does not matter to whether constants can be read. -/
  reads : ∀ asked, (readConstants package crowd.state.globals asked).map (fun _ => ()) =
    package.verdict asked
  /-- Before the init all constants wait. -/
  waits : crowd.state.gate.stage package.name = .untouched →
    crowd.state.pendingOf package.name = constants
  /-- After the init no constants wait, or the init has failed and all of them do. -/
  settled : ∀ outcome, crowd.state.gate.outcome? package.name = some outcome →
    package.EndsAs constants outcome (crowd.state.pendingOf package.name)
  /-- An init resolves the constants, or comes to what is wrong with them, unless the init unit has
  failed. -/
  resolves : ∀ thread level caller claimed outcome ended,
    ∀ follow : Except Interruption Unit → Work Answer,
    let station := setup.station interpreter thread level
    crowd.Claims arrivals thread station package caller claimed →
    Crowd.Passes arrivals thread follow outcome ended (station.runInit package caller).run claimed →
    outcome = (package.verdict constants).mapError .fault ∨
      Crowd.InitFails arrivals thread station package claimed ended outcome
  /-- In particular, an init whose unit has succeeded comes to the verdict on the constants. -/
  succeeds : ∀ thread level caller claimed unit context begun called returned outcome ended,
    ∀ (opening : Context → Work Answer)
      (calling : Except Interruption (Except Fault Unit) × Context → Work Answer)
      (follow : Except Interruption Unit → Work Answer),
    let station := setup.station interpreter thread level
    crowd.Claims arrivals thread station package caller claimed →
    package.init = some unit →
    Crowd.Passes arrivals thread opening context begun (station.openInit package caller) claimed →
    Crowd.Passes arrivals thread calling called returned
      ((station.callUnit unit).attempt.runOn context) begun →
    station.unitOutcome package called = .ok () →
    Crowd.Passes arrivals thread follow outcome ended (station.finishInit package called).run
      returned →
    outcome = (package.verdict constants).mapError .fault
  /-- Nothing keeps a thread that resolves constants from the end. -/
  ends : (resolvePending package).run.Answers (fun _ => True) fun _ => True

section Claiming

variable {loaded : Manifest.Loaded} {manifest : Manifest} {setup : Setup}
  {declared : String → List ConstantAttribute} (loads : manifest.load = .ok loaded)
  (runs : setup.program = loaded.program)

include loads runs

/-- Where tasks resolve constants only under claims, so does whoever passes a gate. -/
theorem Setup.gates_claim {thread : ThreadId} {depth : Nat}
    (tasks : ∀ token, (setup.station (Script.interpreter loaded.bodies) thread depth).TasksStay
      (.claiming ThreadId loaded.program declared) thread token) (token : List Claim) :
    (setup.station (Script.interpreter loaded.bodies) thread depth).GatesStay
      (.claiming ThreadId loaded.program declared) thread token := by
  intro name package isFound caller
  have found : loaded.program.package name = .ok package := by
    rw [← runs, ← setup.toSetup_station (Script.interpreter loaded.bodies) thread depth]
    exact isFound
  have named : package.name = name := (Manifest.program_sound loads name package found).1
  exact Station.ensureInitialized_claims (named.symm ▸ found) (Manifest.within_of_load loads found)
    (tasks _) caller

theorem Setup.tasks_claim (thread : ThreadId) (depth : Nat) (token : List Claim) :
    (setup.station (Script.interpreter loaded.bodies) thread depth).TasksStay
      (.claiming ThreadId loaded.program declared) thread token := by
  refine Script.tasks_stay loaded.bodies setup thread (fun _ => True) ?_ ?_ ?_ ?_ depth token trivial
  · exact fun token _ => Discipline.claiming_toleratesMild _ _ thread token
  · intro depth tasks token _
    exact Setup.gates_claim loads runs (fun token => tasks token trivial) token
  · exact fun token _ => Discipline.claiming_storesStay _ _ thread token
  · intro station bodies token _ task
    exact Station.carryOut_stays (Discipline.claiming_toleratesMild _ _ thread token)
      (Discipline.claiming_toleratesTasks _ _ thread token) (bodies token trivial) task

end Claiming

section Crowds

variable {program : Program} {declared : String → List ConstantAttribute}
  {arrivals : Arrivals ThreadId Machine (Option Answer)}
  {crowd later : Crowd ThreadId Machine (Option Answer)} {package : Package} {thread : ThreadId}
  (welcoming : Crowd.Welcoming (.claiming ThreadId program declared) [] (fun _ _ _ => True) arrivals)
  (within : package.Within program.globalSizes)

include welcoming within in
/-- After the call of its unit, an init under a claim comes to what the unit has failed with or to the
verdict on the constants. -/
theorem Crowd.OrderlyApart.outcome_of_called {station : Station} {caller context : Context}
    {unit : Callable} {called : Except Interruption (Except Fault Unit) × Context}
    {hands : ThreadId → List Claim} {rest : List Claim} {outcome : Except Interruption Unit}
    {begun returned : Crowd ThreadId Machine (Option Answer)}
    {opening : Context → Work (Option Answer)}
    {calling : Except Interruption (Except Fault Unit) × Context → Work (Option Answer)}
    {follow : Except Interruption Unit → Work (Option Answer)}
    (tasks : ∀ token, station.TasksStay (.claiming ThreadId program declared) thread token)
    (orderly : crowd.OrderlyApart (.claiming ThreadId program declared) [] thread hands)
    (claimed : hands thread = ⟨package.name, false⟩ :: rest)
    (passesOpen : Crowd.Passes arrivals thread opening context begun
      (station.openInit package caller) crowd)
    (passesCall : Crowd.Passes arrivals thread calling called returned
      ((station.callUnit unit).attempt.runOn context) begun)
    (passesFinish : Crowd.Passes arrivals thread follow outcome later
      (station.finishInit package called).run returned) :
    outcome = (station.unitOutcome package called).bind fun _ =>
      (package.verdict (declared package.name)).mapError .fault := by
  obtain ⟨_, orderlyBegun, isHeld, _⟩ :=
    orderly.passes welcoming claimed Station.openInit_claims passesOpen
  obtain ⟨_, orderlyReturned, stillHeld, _⟩ := orderlyBegun.passes welcoming isHeld
    (Station.attemptUnit_claims (tasks _) unit context) passesCall
  obtain ⟨_, _, _, isOutcome⟩ := orderlyReturned.passes welcoming stillHeld
    (Station.finishInit_claims within called) passesFinish
  exact isOutcome

include welcoming within in
/-- An init under a claim resolves the constants as they are declared, unless the init unit fails. -/
theorem Crowd.OrderlyApart.resolves_or_fails {station : Station} {caller : Context}
    {hands : ThreadId → List Claim} {rest : List Claim} {outcome : Except Interruption Unit}
    {follow : Except Interruption Unit → Work (Option Answer)}
    (tasks : ∀ token, station.TasksStay (.claiming ThreadId program declared) thread token)
    (orderly : crowd.OrderlyApart (.claiming ThreadId program declared) [] thread hands)
    (claimed : hands thread = ⟨package.name, false⟩ :: rest)
    (passes : Crowd.Passes arrivals thread follow outcome later (station.runInit package caller).run
      crowd) :
    outcome = (package.verdict (declared package.name)).mapError .fault ∨
      Crowd.InitFails arrivals thread station package crowd later outcome := by
  cases isInit : package.init with
  | none =>
    have ofPending : (station.runInit package caller).run = (resolvePending package).run := by
      unfold Station.runInit
      rw [isInit]
    rw [ofPending] at passes
    obtain ⟨_, _, reached⟩ :=
      orderly.passes welcoming claimed (resolvePending_claims within) passes
    left
    rcases outcome with _ | _ <;> exact reached.1
  | some unit =>
    rw [Station.runInit_eq isInit] at passes
    obtain ⟨context, begun, passesOpen, passesOn⟩ := passes.exists_between
    obtain ⟨called, returned, passesCall, passesEnd⟩ := passesOn.exists_between
    have leadsOn := passesEnd.leads
    rw [Effect.run_followedBy] at passesEnd
    obtain ⟨result, finished, passesFinish, passesRelease⟩ := passesEnd.exists_between
    obtain ⟨_, _, _, passesLast⟩ := passesRelease.exists_between
    cases passesLast.eq_of_done
    have isOutcome := orderly.outcome_of_called welcoming within tasks claimed passesOpen passesCall
      passesFinish
    cases ofUnit : station.unitOutcome package called with
    | ok _ =>
      rw [ofUnit] at isOutcome
      exact .inl isOutcome
    | error interruption =>
      rw [ofUnit] at isOutcome
      refine .inr ⟨unit, context, called, _, begun, returned, isInit, passesOpen.leads, passesCall,
        leadsOn, ?_, ofUnit.trans isOutcome.symm⟩
      rw [isOutcome]
      rfl

include welcoming in
/-- A thread that has passed a gate to run the init has a claim. -/
theorem Crowd.OrderlyWith.claims {station : Station} {caller : Context}
    {hands : ThreadId → List Claim}
    (orderly : crowd.OrderlyWith (.claiming ThreadId program declared) [] (fun _ _ _ => True) hands)
    (claims : crowd.Claims arrivals thread station package caller later) :
    ∃ held, later.OrderlyApart (.claiming ThreadId program declared) [] thread held ∧
      held thread = ⟨package.name, false⟩ :: hands thread := by
  obtain ⟨phase, follow, isClaim, passes⟩ := claims
  obtain ⟨held, orderlyThen, _, isHeld⟩ := (orderly.apart thread none).passes welcoming rfl
    Station.passGate_claims passes
  refine ⟨held, orderlyThen, ?_⟩
  cases phase with
  | answered _ =>
    cases isClaim
    exact isHeld
  | _ => cases isClaim

/-- Nothing keeps a thread that resolves constants from the end. -/
theorem resolvePending_answers (package : Package) :
    (resolvePending package).run.Answers (fun _ => True) fun _ => True := by
  intro machine _
  refine ⟨rfl, fun later _ => ⟨rfl, ?_⟩⟩
  dsimp only
  cases readConstants package later.globals (Machine.takePending package.name machine).1 with
  | ok _ => exact fun _ _ => ⟨rfl, trivial⟩
  | error _ => exact fun _ _ => ⟨rfl, trivial⟩

include welcoming within in
/-- In a crowd that resolves constants only under claims, constants are resolved as declared. -/
theorem Crowd.Orderly.resolvesConstants {setup : Setup} {interpreter : Interpreter}
    (orderly : crowd.Orderly (.claiming ThreadId program declared) [] fun _ _ _ => True)
    (found : program.package package.name = .ok package)
    (tasks : ∀ thread level token, (setup.station interpreter thread level).TasksStay
      (.claiming ThreadId program declared) thread token) :
    crowd.ResolvesConstants setup interpreter arrivals package (declared package.name) := by
  obtain ⟨hands, orderlyWith⟩ := orderly
  have claimed : Claimed program declared crowd.state hands := orderlyWith.fits
  refine ⟨?_, claimed.untouched package.name, ?_, ?_, ?_, resolvePending_answers package⟩
  · intro asked
    apply Package.readConstants_verdict
    rw [claimed.sized]
    exact within
  · intro outcome settled
    exact claimed.settled package.name package outcome found
      ((Gate.outcome?_eq_some_iff _ _ _).mp settled)
  · intro thread level caller middle outcome ended follow station claims passes
    obtain ⟨held, orderlyThen, isHeld⟩ := orderlyWith.claims welcoming claims
    exact orderlyThen.resolves_or_fails welcoming within (tasks thread level) isHeld passes
  · intro thread level caller middle unit context begun called returned outcome ended opening calling
      follow station claims _ passesOpen passesCall succeeds passesFinish
    obtain ⟨held, orderlyThen, isHeld⟩ := orderlyWith.claims welcoming claims
    have isOutcome := orderlyThen.outcome_of_called welcoming within (tasks thread level) isHeld
      passesOpen passesCall passesFinish
    rw [succeeds] at isOutcome
    exact isOutcome

end Crowds

/-- The constants of a loaded manifest resolve exactly when they are well declared.  Let any number of
threads of a host make calls by name after the session has started, and let the threads interleave as
they may.  Whatever has been stored in global memory by then, whoever runs the init of a package, and
does not fail with the init unit, resolves all constants of the package if each of them names a global
of a type that constants can have, and otherwise comes to the offence of the first one that does not;
no constant is ever out of the range of global memory. -/
theorem constants_resolved {manifest : Manifest} {loaded : Manifest.Loaded}
    (loads : manifest.load = .ok loaded) {setup : Setup} (runs : setup.program = loaded.program)
    (properties : Properties) {name : String} {package : Package}
    (found : loaded.program.package name = .ok package) :
    let scripts := Script.interpreter loaded.bodies
    let constants := declaredFor loaded.constantNames name
    (package.verdict constants = .ok () ↔
      ∀ constant ∈ constants, package.Declares constant.name) ∧
    (∀ fault, package.verdict constants = .error fault → package.Offends constants fault) ∧
    ∃ session, Session.start setup scripts properties loaded.constantNames = .ok session ∧
      ∀ {Answer : Type} {crowd later : Crowd ThreadId Machine (Option Answer)} {depth : Nat},
        crowd.state = session.machine →
        (∀ thread process, crowd.process thread = some process →
          (setup.station scripts thread depth).CallsByName process) →
        crowd.Leads (setup.Starts scripts depth) later →
        later.ResolvesConstants setup scripts (setup.Starts scripts depth) package constants := by
  intro scripts constants
  obtain ⟨session, starts⟩ := Session.exists_start_of_load loads runs scripts properties
  refine ⟨Package.verdict_eq_ok_iff, fun fault => Package.offends_of_verdict, session, starts, ?_⟩
  intro Answer crowd later depth fresh hosts leads
  have named : package.name = name := (Manifest.program_sound loads name package found).1
  subst named
  have tasks : ∀ thread level token, (setup.station scripts thread level).TasksStay
      (.claiming ThreadId loaded.program (declaredFor loaded.constantNames)) thread token :=
    fun thread level token => Setup.tasks_claim loads runs thread level token
  have tolerance : ∀ thread, (Discipline.claiming ThreadId loaded.program
      (declaredFor loaded.constantNames)).ToleratesMild thread [] :=
    fun thread => Discipline.claiming_toleratesMild _ _ thread []
  have welcoming : Crowd.Welcoming (.claiming ThreadId loaded.program
      (declaredFor loaded.constantNames)) [] (fun _ _ _ => True)
      (setup.Starts scripts depth : Arrivals ThreadId Machine (Option Answer)) :=
    Setup.starts_welcoming_mild tolerance fun thread => tasks thread depth []
  have claimed : Claimed setup.program (declaredFor loaded.constantNames) session.machine
      fun _ : ThreadId => [] :=
    Session.start_claimed starts
  have orderly := Crowd.orderly_of_callsByName tolerance (fun thread => tasks thread depth [])
    (fun thread => Setup.gates_claim loads runs (tasks thread depth) [])
    (by rw [fresh, ← runs]; exact claimed) hosts
  exact (orderly.leads welcoming leads).resolvesConstants welcoming
    (Manifest.within_of_load loads found) found tasks

def Manifest.withMissingGlobal : Manifest where
  globals := { longs := 1 }
  packages := [
    { name := "settings"
      globals := [⟨"answer", 0, .int⟩]
      init := none
      functions := [⟨"run", false, [], [], [⟨defaultWorkerName, {}, [.finish]⟩]⟩] }]
  constants := [⟨"settings", "answer"⟩, ⟨"settings", "missing"⟩]

/-- What the init of a package has come to when a host has called a function of the package and nobody
else has been there. -/
def Manifest.outcomeOfCall (manifest : Manifest) (package function : String) :
    Option (Except Fault Unit) :=
  match manifest.load with
  | .error _ => none
  | .ok loaded =>
    let setup : Setup := ⟨loaded.program, .threadPool true Policy.usualThreadName 2, .full⟩
    let scripts := Script.interpreter loaded.bodies
    match Session.start setup scripts .empty loaded.constantNames with
    | .error _ => none
    | .ok session =>
      (((setup.station scripts Session.hostThread 9).callNamed package function []).run.runAlone
        session.machine).bind fun answered => answered.2.gate.outcome? package

/-- A host calls a function of a package for which a constant cannot be resolved. -/
theorem constants_resolved_of_missing :
    ∃ loaded package, Manifest.withMissingGlobal.load = .ok loaded ∧
      loaded.program.package "settings" = .ok package ∧
      let setup : Setup := ⟨loaded.program, .threadPool true Policy.usualThreadName 2, .full⟩
      let scripts := Script.interpreter loaded.bodies
      ∃ session, Session.start setup scripts .empty loaded.constantNames = .ok session ∧
        ∃ later, ((setup.station scripts Session.hostThread 9).callingOnce session.machine "settings"
            "run").Leads (setup.Starts scripts 9) later ∧
          later.state.gate.outcome? "settings" =
            some (.error (.unknownConstant "settings" "missing")) ∧
          later.ResolvesConstants setup scripts (setup.Starts scripts 9) package
            (declaredFor loaded.constantNames "settings") := by
  obtain ⟨loaded, loads⟩ : ∃ loaded, Manifest.withMissingGlobal.load = .ok loaded := ⟨_, rfl⟩
  obtain ⟨package, found⟩ : ∃ package, loaded.program.package "settings" = .ok package := by
    cases loads
    exact ⟨_, rfl⟩
  refine ⟨loaded, package, loads, found, ?_⟩
  intro setup scripts
  obtain ⟨_, _, session, starts, resolves⟩ :=
    constants_resolved loads (show setup.program = loaded.program from rfl) .empty found
  have ran : Manifest.withMissingGlobal.outcomeOfCall "settings" "run" =
      some (.error (.unknownConstant "settings" "missing")) := by
    decide +kernel
  unfold Manifest.outcomeOfCall at ran
  rw [loads] at ran
  dsimp only at ran
  rw [starts] at ran
  obtain ⟨⟨outcome, last⟩, ends, settled⟩ := Option.bind_eq_some_iff.mp ran
  obtain ⟨later, passes, rfl⟩ := Crowd.exists_passes_of_runAlone
    (setup.process_callingOnce scripts 9 session.machine "settings" "run") ends
  have hosts := setup.callsByName_of_callingOnce scripts 9 session.machine "settings" "run"
  exact ⟨session, starts, later, passes.leads, settled, resolves rfl hosts passes.leads⟩

end WorkerMachine
