import WorkerMachine.Proofs.Failing.Outcomes
import WorkerMachine.Proofs.Failing.Solitude
/-!
# Failures of inits up to a host

A host calls a function by name, and the init of its package is the first link of a chain of inits that
fails.  The host is answered with the failure of the last package of the chain, every package of the
chain is settled with it for good, and no worker of the functions that were called for starts.
-/

namespace WorkerMachine

open Clearance Settling

/-! ## Settled packages -/

section Settled

variable {Answer : Type} {setup : Setup} {bodies : Table BodyKey (List Script.Instruction)}
  {thread : ThreadId} {depth : Nat} {arrivals : Arrivals ThreadId Machine (Option Answer)}
  {crowd later : Crowd ThreadId Machine (Option Answer)}

theorem Setup.tasks_keepOutcomes (setup : Setup) (bodies : Table BodyKey (List Script.Instruction))
    (thread : ThreadId) (depth : Nat) (token : List String) :
    (setup.station (Script.interpreter bodies) thread depth).TasksStay (.keepingOutcomes ThreadId)
      thread token :=
  Script.tasks_stay bodies setup thread (fun _ => True)
    (fun token _ => Discipline.keepingOutcomes_toleratesMild thread token)
    (fun _ tasks _ _ => Station.gates_keepOutcomes fun token => tasks token trivial)
    (fun token _ => Discipline.keepingOutcomes_storesStay thread token)
    (fun _ carries token _ task =>
      Station.carryOut_stays (Discipline.keepingOutcomes_toleratesMild thread token)
        (Discipline.keepingOutcomes_toleratesTasks thread token) (carries token trivial) task)
    depth token trivial

theorem Setup.starts_welcoming_keepingOutcomes (setup : Setup)
    (bodies : Table BodyKey (List Script.Instruction)) (depth : Nat) :
    Crowd.Welcoming (.keepingOutcomes ThreadId) [] (fun _ _ _ => True)
      (setup.Starts (Script.interpreter bodies) depth :
        Arrivals ThreadId Machine (Option Answer)) :=
  Setup.starts_welcoming_mild (fun thread => Discipline.keepingOutcomes_toleratesMild thread [])
    fun thread => setup.tasks_keepOutcomes bodies thread depth []

/-- Hosts that make calls by name write to the cells of packages only under claims. -/
theorem Crowd.orderly_keepingOutcomes
    (hosts : ∀ thread process, crowd.process thread = some process →
      (setup.station (Script.interpreter bodies) thread depth).CallsByName process) :
    crowd.Orderly (.keepingOutcomes ThreadId) [] fun _ _ _ => True := by
  have nobodyClaims : ClaimedOnce crowd.state fun _ : ThreadId => [] :=
    ⟨fun _ _ never => (nomatch never), fun _ _ _ never => (nomatch never), fun _ => List.nodup_nil⟩
  exact Crowd.orderly_of_callsByName
    (fun thread => Discipline.keepingOutcomes_toleratesMild thread [])
    (fun thread => setup.tasks_keepOutcomes bodies thread depth [])
    (fun thread => Station.gates_keepOutcomes (setup.tasks_keepOutcomes bodies thread depth))
    nobodyClaims hosts

/-- What an init has come to stays. -/
theorem Crowd.Orderly.outcome_of_leads
    (welcoming : Welcoming (.keepingOutcomes ThreadId) [] (fun _ _ _ => True) arrivals)
    (orderly : crowd.Orderly (.keepingOutcomes ThreadId) [] fun _ _ _ => True) {name : String}
    {outcome : Except Fault Unit} (settled : crowd.state.gate.outcome? name = some outcome)
    (leads : crowd.Leads arrivals later) : later.state.gate.outcome? name = some outcome := by
  induction leads with
  | refl => exact settled
  | tail before moved inductionHypothesis =>
    obtain ⟨mover, moved⟩ := moved
    obtain ⟨keepsOutcomes, _⟩ := (orderly.leads welcoming before).move welcoming moved
    exact keepsOutcomes name outcome inductionHypothesis

/-- As long as a package is not initialized, its workers start only below the context that its init
unit is called from. -/
theorem Crowd.Orderly.starts_below
    (welcoming : Welcoming .clearing [] (fun _ _ _ => True) arrivals)
    (orderly : crowd.Orderly .clearing [] fun _ _ _ => True) (keeps : crowd.KeepsBooks arrivals)
    {moment next : Crowd ThreadId Machine (Option Answer)} {mover : ThreadId} {name : String}
    {context : ContextId} {failure : Fault} (leads : crowd.Leads arrivals moment)
    (moved : moment.Move arrivals mover next) (leadsLater : next.Leads arrivals later)
    (failed : later.state.gate.outcome? name = some (.error failure))
    (called : .initCalled name context ∈ later.state.history) :
    ∃ since, next.state.startedOf name = since ++ moment.state.startedOf name ∧
      ∀ task ∈ since, context ∈ (moment.state.arena Machine.ownArena).ancestry task.context.id := by
  have orderlyMoment := orderly.leads welcoming leads
  have leadsOn : moment.Leads arrivals later := .head ⟨mover, moved⟩ leadsLater
  obtain ⟨since, grows, admitted⟩ := (orderlyMoment.move welcoming moved).1.startedOf name
  refine ⟨since, grows, fun task member => ?_⟩
  obtain initialized | ⟨mark, marked, isAncestor⟩ := admitted task member
  · exfalso
    have settled : moment.state.gate.outcome? name = some (.ok ()) := by
      unfold Gate.isInitialized at initialized
      split at initialized
      · assumption
      · cases initialized
    have stillSettled := Crowd.outcome_of_leads welcoming orderlyMoment settled leadsOn
    cases failed.symm.trans stillSettled
  · -- The init unit is called at most once, so the mark is the one of this call.
    obtain ⟨_, orderlyWith⟩ := orderlyMoment
    obtain ⟨_, sound, _⟩ := orderlyWith.fits
    obtain ⟨_, orderlyLater⟩ := orderly.leads welcoming (leads.trans leadsOn)
    obtain ⟨_, soundLater, _⟩ := orderlyLater.fits
    have inHistory : ∀ {machine : Machine} {id : ContextId},
        (name, id) ∈ machine.scene.inits ↔ .initCalled name id ∈ machine.history := by
      intro machine id
      change _ ∈ machine.history.filterMap Happening.initCall? ↔ _
      rw [List.mem_filterMap]
      constructor
      · rintro ⟨happening, isHappening, isCall⟩
        cases happening <;> cases isCall
        exact isHappening
      · exact fun isHappening => ⟨_, isHappening, rfl⟩
    have noted := inHistory.mp (sound.inits.noted name mark marked)
    have notedLater := (keeps.leads leads).history leadsOn noted
    have among : ∀ id, .initCalled name id ∈ later.state.history →
        (name, id) ∈ later.state.scene.initsOf name :=
      fun id isCalled => List.mem_filter.mpr ⟨inHistory.mpr isCalled, decide_eq_true rfl⟩
    have same : mark.context = context := by
      have isMark := among mark.context notedLater
      have isCall := among context called
      have once := soundLater.inits.once name
      generalize later.state.scene.initsOf name = calls at isMark isCall once
      match calls with
      | [only] =>
        have sameCall := (List.mem_singleton.mp isMark).trans (List.mem_singleton.mp isCall).symm
        exact congrArg Prod.snd sameCall
    rw [← same]
    exact isAncestor

end Settled

/-! ## Trails that begin at a host -/

/-- A host calls a function of a package by name, with the right number of arguments, and the package
is the first link of a chain of inits. -/
inductive Crowd.NamedInitTrail {Answer : Type} (setup : Setup) (interpreter : Interpreter)
    (arrivals : Arrivals ThreadId Machine (Option Answer)) (last : Package) (ending : Fault)
    (thread : ThreadId) (root : Context) (package function : String) (arguments : List Value)
    (goesOn : Except Interruption (List Value) → Work (Option Answer)) :
    Crowd ThreadId Machine (Option Answer) → List InitLink →
      Crowd ThreadId Machine (Option Answer) → Prop
  | called {crowd later : Crowd ThreadId Machine (Option Answer)} {link : InitLink}
      {inner : List InitLink} {nesting : Nat} {station : Station} {unit : Callable}
      {outcome : Except Interruption Unit} :
      station = setup.station interpreter thread nesting →
      crowd.process thread =
        some ((station.callNamedIn root package function arguments).run.bind goesOn) →
      setup.program.package package = .ok link.package →
      Program.function link.package package function = .ok unit →
      unit.params.length = arguments.length →
      link.caller = root →
      crowd.InitTrail setup interpreter arrivals last ending thread
        (fun reached => (station.afterNamedGate unit root arguments reached).bind goesOn) outcome
        (link :: inner) later →
      NamedInitTrail setup interpreter arrivals last ending thread root package function arguments
        goesOn crowd (link :: inner) later

/-! ## A host that moves alone -/

/-- The links of the chain of inits that a host makes if nobody else moves, and if the init unit of the
package that it calls into calls a function of another package, whose init unit fails; and the fault that
this init unit ends with. -/
def Setup.initsAlone (setup : Setup) (bodies : Table BodyKey (List Script.Instruction))
    (nesting : Nat) (machine : Machine) : Option (InitLink × InitLink × Fault) := do
  let station := setup.station (Script.interpreter bodies) Session.hostThread
  let (opening, rooted) ← (openRoot Machine.ownArena Machine.ownProperties).run.runAlone machine
  let root ← opening.toOption
  let package ← (setup.program.package "outer").toOption
  let packageInner ← (setup.program.package "inner").toOption
  let called ← (Program.function package "outer" "run").toOption
  let _ ← (Program.function packageInner "inner" "run").toOption
  let unit ← package.init
  let unitInner ← packageInner.init
  let _ ← ((station (nesting + 1)).ensureInitialized package root).run.runAlone rooted
  let (context, opened) ← (station (nesting + 1)).enterInit package root rooted
  let request := Script.request unit context []
  let (task, entered) ← (station (nesting + 1)).entry request opened
  let (_, returned) ← ((station (nesting + 1)).invokeInSteps request 0 context.locals
    []).run.runAlone opened
  let (contextInner, openedInner) ← (station nesting).enterInit packageInner task.context entered
  let (answer, _) ← ((station nesting).invokeInSteps (Script.request unitInner contextInner []) 0
    contextInner.locals []).run.runAlone openedInner
  let ending ← Station.answeredFault? answer
  if called.params.length = 0 ∧ ending.isFatal = false ∧ unit.scheduledWorkers = [] ∧
      task.context.activity = some (unit, unit.callerWorker) ∧
      bodies.get? (unit.bodyKey unit.callerWorker) = some [.call "inner" "run" [] []] ∧
      (returned.endings task.response).length = 1 then
    some (⟨package, root, context⟩, ⟨packageInner, task.context, contextInner⟩, ending)
  else none

/-- The links of the chain of inits that a host makes alone are those of a trail. -/
theorem Setup.exists_trail_of_initsAlone {setup : Setup}
    {bodies : Table BodyKey (List Script.Instruction)} {nesting : Nat} {machine : Machine}
    {outer inner : InitLink} {ending : Fault}
    {arrivals : Arrivals ThreadId Machine (Option (Except Interruption (List Value)))}
    (isChain : setup.initsAlone bodies nesting machine = some (outer, inner, ending))
    (keeps : ((setup.station (Script.interpreter bodies) Session.hostThread (nesting + 1)).callingOnce
      machine "outer" "run").KeepsBooks arrivals) :
    ∃ crowd root goesOn later,
      ((setup.station (Script.interpreter bodies) Session.hostThread (nesting + 1)).callingOnce machine
        "outer" "run").Leads arrivals crowd ∧
      crowd.NamedInitTrail setup (Script.interpreter bodies) arrivals inner.package ending
        Session.hostThread root "outer" "run" [] goesOn [outer, inner] later := by
  unfold Setup.initsAlone at isChain
  obtain ⟨⟨_, rooted⟩, opens, onRooted⟩ := Option.bind_eq_some_iff.mp isChain
  obtain ⟨root, isRoot, onRoot⟩ := Option.bind_eq_some_iff.mp onRooted
  obtain ⟨package, isPackage, onPackage⟩ := Option.bind_eq_some_iff.mp onRoot
  obtain ⟨packageInner, isPackageInner, onPackages⟩ := Option.bind_eq_some_iff.mp onPackage
  obtain ⟨called, isCalled, onCalled⟩ := Option.bind_eq_some_iff.mp onPackages
  obtain ⟨calledInner, isCalledInner, onFunctions⟩ := Option.bind_eq_some_iff.mp onCalled
  obtain ⟨unit, isInit, onUnit⟩ := Option.bind_eq_some_iff.mp onFunctions
  obtain ⟨unitInner, isInitInner, onUnits⟩ := Option.bind_eq_some_iff.mp onUnit
  obtain ⟨⟨outcome, after⟩, ran, onRan⟩ := Option.bind_eq_some_iff.mp onUnits
  obtain ⟨⟨context, opened⟩, enters, onEnters⟩ := Option.bind_eq_some_iff.mp onRan
  obtain ⟨⟨task, entered⟩, entersUnit, onTask⟩ := Option.bind_eq_some_iff.mp onEnters
  obtain ⟨⟨answer, returned⟩, answers, onAnswer⟩ := Option.bind_eq_some_iff.mp onTask
  obtain ⟨⟨contextInner, openedInner⟩, entersInner, onInner⟩ := Option.bind_eq_some_iff.mp onAnswer
  obtain ⟨⟨answerInner, returnedInner⟩, answersInner, onEnding⟩ := Option.bind_eq_some_iff.mp onInner
  obtain ⟨fault, isEnding, onLinks⟩ := Option.bind_eq_some_iff.mp onEnding
  obtain ⟨⟨arity, notFatal, single, isActive, isBody, once⟩, isLinks⟩ :=
    Option.ite_none_right_eq_some.mp onLinks
  obtain rfl := Station.eq_ok_of_toOption isRoot
  have isPackage := Station.eq_ok_of_toOption isPackage
  have isPackageInner := Station.eq_ok_of_toOption isPackageInner
  have isCalled := Station.eq_ok_of_toOption isCalled
  have isCalledInner := Station.eq_ok_of_toOption isCalledInner
  obtain ⟨rfl, rfl, rfl⟩ : _ ∧ _ ∧ fault = ending := by
    obtain ⟨isOuter, isRest⟩ := Prod.mk.inj (Option.some.inj isLinks)
    exact ⟨isOuter, Prod.mk.inj isRest⟩
  have endsCall := Station.endsCall_of_answeredFault isEnding
  have begun := Station.process_callingOnce
    (setup.station (Script.interpreter bodies) Session.hostThread (nesting + 1)) machine "outer" "run"
  rw [Setup.thread_station] at begun
  obtain ⟨crowd, passesOpen, rfl⟩ := Crowd.exists_passes_of_runAlone begun opens
  have begunCall := passesOpen.reached
  have isGate : ((setup.station (Script.interpreter bodies) Session.hostThread
      (nesting + 1)).callNamedIn root "outer" "run" []).run = _ :=
    Station.callNamedIn_eq_gate (by rwa [Setup.program_station]) isCalled
      (show called.params.length = ([] : List Value).length from arity) root
  have begunGate := begunCall
  dsimp only at begunGate
  rw [isGate, Process.bind_assoc] at begunGate
  let inner : InitLink := ⟨packageInner, task.context, contextInner⟩
  let outer : InitLink := ⟨package, root, context⟩
  have makes : outer.MakesTrail setup bodies arrivals packageInner fault Session.hostThread
      (nesting + 1) [inner] crowd.state outcome after := by
    refine InitLink.makesTrail_of_call ⟨"outer", isPackage⟩ isInit enters entersUnit answers rfl isActive
      isBody isPackageInner isCalledInner (Nat.zero_le _) ?_ ?_ ran
    · exact fun reached failed => InitLink.makesTrail_of_ends ⟨"inner", isPackageInner⟩ isInitInner
        entersInner answersInner endsCall notFatal
    · exact fun _ _ => @Machine.onlyFails_of_single _ ⟨task, unit, unit.callerWorker⟩ single isActive
        once _ _
  obtain ⟨later, trail, _, _⟩ := makes crowd _ (keeps.leads passesOpen.leads) rfl begunGate
  exact ⟨crowd, root, _, later, passesOpen.leads, .called rfl begunCall isPackage isCalled arity rfl trail⟩

/-! ## The answer of a host -/

/-- Between two moments, the workers of a package that start do so below a context. -/
def Crowd.StartsBelow {Answer : Type} (arrivals : Arrivals ThreadId Machine (Option Answer))
    (crowd later : Crowd ThreadId Machine (Option Answer)) (package : String) (context : ContextId) :
    Prop :=
  ∀ moment mover next, crowd.Leads arrivals moment → moment.Move arrivals mover next →
    next.Leads arrivals later →
    ∃ since, next.state.startedOf package = since ++ moment.state.startedOf package ∧
      ∀ task ∈ since, context ∈ (moment.state.arena Machine.ownArena).ancestry task.context.id

/-- How a link of a chain of inits has failed for good: the init unit has been called from a context
below the caller, and whatever comes, the init of the package has come to the failure. -/
structure InitLink.FailsForGood {Answer : Type} (arrivals : Arrivals ThreadId Machine (Option Answer))
    (failure : Fault) (later : Crowd ThreadId Machine (Option Answer)) (link : InitLink) : Prop where
  below : link.context.parent = some link.caller.id
  called : .initCalled link.package.name link.context.id ∈ later.state.history
  caches : ∀ after, later.Leads arrivals after →
    after.state.gate.outcome? link.package.name = some (.error failure)

/-- A failure passes unchanged through a chain of inits.  Let any number of threads of a host make calls
by name after the session has started for a loaded manifest, and let the threads interleave as they may.
One of the hosts calls a function of a package as it should, and claims the init of the package; a worker
of the init unit calls a function of another package as it should, and claims the init of that package;
and so on down to a package whose init unit ends with a raised error or with a fault that is not fatal,
and no other worker of these init units fails.  Then the host is answered with the failure of the last
package of the chain, which tells the trace of the error or the wording of the fault; this very failure
is what the init of every package of the chain has come to, for good, and what every worker that has
called into the chain is left with.  None of these calls starts a worker of the function that it is for:
all workers of the packages that start meanwhile do so below the contexts of the inits. -/
theorem init_failure_crosses_chain {manifest : Manifest} {loaded : Manifest.Loaded}
    (loads : manifest.load = .ok loaded) {setup : Setup} (runs : setup.program = loaded.program)
    (properties : Properties) :
    let scripts := Script.interpreter loaded.bodies
    ∃ session, Session.start setup scripts properties loaded.constantNames = .ok session ∧
      ∀ {Answer : Type} {depth : Nat} {opened crowd later : Crowd ThreadId Machine (Option Answer)}
        {last : Package} {ending : Fault} {thread : ThreadId} {root : Context}
        {package function : String} {arguments : List Value}
        {goesOn : Except Interruption (List Value) → Work (Option Answer)} {chain : List InitLink},
        opened.state = session.machine →
        (∀ thread process, opened.process thread = some process →
          (setup.station scripts thread depth).CallsByName process) →
        opened.Leads (setup.Starts scripts depth) crowd →
        crowd.NamedInitTrail setup scripts (setup.Starts scripts depth) last ending thread root package
          function arguments goesOn chain later →
        let failure := Fault.packageInitFailure last.name (setup.traceStyle.tell ending)
        later.process thread = some (goesOn (.error (.fault failure))) ∧
          (∀ link ∈ chain, link.FailsForGood (setup.Starts scripts depth) failure later) ∧
          (∀ link ∈ chain.tail, ∃ task, .ended task (.error (.fault failure)) link.caller ∈
            later.state.history) ∧
          (setup.policy.NamesThreads → ∀ link ∈ chain,
            crowd.StartsBelow (setup.Starts scripts depth) later link.package.name link.context.id) := by
  intro scripts
  obtain ⟨session, starts⟩ := Session.exists_start_of_load loads runs scripts properties
  refine ⟨session, starts, ?_⟩
  intro Answer depth opened crowd later last ending thread root package function arguments goesOn chain
    fresh hosts leads trail failure
  have wellBuilt : setup.program.WellBuilt := by
    rw [runs]
    exact Manifest.program_wellBuilt loads
  have keeps := (Session.keepsBooks starts wellBuilt.sound fresh hosts).leads leads
  cases trail with
  | @called _ first inner _ _ _ _ _ _ _ _ _ _ trail =>
    obtain ⟨leadsLater, isFailure, fails, left⟩ := trail.fails keeps
      (Setup.station_settlesTasks wellBuilt.sound (Script.interpreter_settles loaded.bodies)) wellBuilt
    have reached : later.process thread = _ := trail.reached
    rw [isFailure] at reached
    have keepsOutcomes := (Crowd.orderly_keepingOutcomes hosts).leads
      (setup.starts_welcoming_keepingOutcomes loaded.bodies depth) leads
    have settled : ∀ link ∈ first :: inner, link.FailsForGood (setup.Starts scripts depth) failure later := by
      intro link member
      obtain ⟨below, called, moment, leadsMoment, momentLeads, settled⟩ := fails link member
      refine ⟨below, called, fun after leadsAfter => ?_⟩
      exact (keepsOutcomes.leads (setup.starts_welcoming_keepingOutcomes loaded.bodies depth)
        leadsMoment).outcome_of_leads (setup.starts_welcoming_keepingOutcomes loaded.bodies depth)
        settled (momentLeads.trans leadsAfter)
    refine ⟨reached, settled, left, ?_⟩
    intro named link member moment mover next leadsMoment moved leadsNext
    obtain ⟨welcoming, orderly⟩ := Session.clearing loads runs named starts fresh hosts
    obtain ⟨_, called, caches⟩ := settled link member
    exact (orderly.leads welcoming leads).starts_below welcoming keeps leadsMoment moved leadsNext
      (caches later .refl) called

/-- Two packages, where the init unit of one calls a function of the other, and the init unit of the
other raises an error. -/
def Manifest.failingBelow : Manifest where
  globals := {}
  packages := [
    callingEntry "outer" "inner",
    { name := "inner"
      globals := []
      init := some ⟨initUnitName, false, [], [], [⟨defaultWorkerName, {}, [.raise "lost"]⟩]⟩
      functions := [⟨"run", false, [], [], [⟨defaultWorkerName, {}, [.finish]⟩]⟩] }]
  constants := []

def Manifest.failureAlone (manifest : Manifest) : Option (String × String × Fault) :=
  match manifest.load with
  | .error _ => none
  | .ok loaded =>
    let setup : Setup := ⟨loaded.program, .threadPool true Policy.usualThreadName 2, .full⟩
    match Session.start setup (Script.interpreter loaded.bodies) .empty loaded.constantNames with
    | .error _ => none
    | .ok session =>
      (setup.initsAlone loaded.bodies 8 session.machine).map fun inits =>
        (inits.1.package.name, inits.2.1.package.name, inits.2.2)

/-- A host calls a function of a package whose init unit calls into another package, the init unit of
which raises an error. -/
theorem init_failure_crosses_chain_of_failingBelow :
    ∃ loaded, Manifest.failingBelow.load = .ok loaded ∧
      let setup : Setup := ⟨loaded.program, .threadPool true Policy.usualThreadName 2, .full⟩
      let scripts := Script.interpreter loaded.bodies
      let error : ErrorValue := ⟨⟨"lost", [⟨"inner", initUnitName, defaultWorkerName⟩]⟩, []⟩
      let failure := Fault.packageInitFailure "inner" (TraceStyle.full.render error)
      ∃ session, Session.start setup scripts .empty loaded.constantNames = .ok session ∧
        ∃ crowd root goesOn outer inner later,
          ((setup.station scripts Session.hostThread 9).callingOnce session.machine "outer"
            "run").Leads (setup.Starts scripts 9) crowd ∧
          crowd.NamedInitTrail setup scripts (setup.Starts scripts 9) inner.package
            (.propagated error) Session.hostThread root "outer" "run" [] goesOn [outer, inner] later ∧
          outer.package.name = "outer" ∧ inner.package.name = "inner" ∧
          later.process Session.hostThread = some (goesOn (.error (.fault failure))) ∧
          outer.FailsForGood (setup.Starts scripts 9) failure later ∧
          inner.FailsForGood (setup.Starts scripts 9) failure later ∧
          (∃ task, .ended task (.error (.fault failure)) inner.caller ∈ later.state.history) ∧
          crowd.StartsBelow (setup.Starts scripts 9) later "outer" outer.context.id ∧
          crowd.StartsBelow (setup.Starts scripts 9) later "inner" inner.context.id := by
  obtain ⟨loaded, loads⟩ : ∃ loaded, Manifest.failingBelow.load = .ok loaded := ⟨_, rfl⟩
  refine ⟨loaded, loads, ?_⟩
  intro setup scripts error failure
  obtain ⟨session, starts, crosses⟩ :=
    init_failure_crosses_chain loads (show setup.program = loaded.program from rfl) .empty
  have alone : Manifest.failingBelow.failureAlone = some ("outer", "inner", .propagated
      ⟨⟨"lost", [⟨"inner", initUnitName, defaultWorkerName⟩]⟩, []⟩) := by
    decide +kernel
  unfold Manifest.failureAlone at alone
  rw [loads] at alone
  dsimp only at alone
  rw [starts] at alone
  obtain ⟨⟨outer, inner, ending⟩, isChain, isAlone⟩ := Option.map_eq_some_iff.mp alone
  obtain ⟨isOuter, isRest⟩ := Prod.mk.inj isAlone
  obtain ⟨isInner, isEnding⟩ := Prod.mk.inj isRest
  have hosts := setup.callsByName_of_callingOnce scripts 9 session.machine "outer" "run"
  have keeps := Session.keepsBooks starts (Manifest.program_sound loads) rfl hosts
  obtain ⟨crowd, root, goesOn, later, leads, trail⟩ := Setup.exists_trail_of_initsAlone isChain keeps
  dsimp only at isOuter isInner isEnding
  subst isEnding
  obtain ⟨isAnswer, fails, left, below⟩ := crosses rfl hosts leads trail
  have startsBelow := below fun _ => rfl
  rw [isInner] at isAnswer fails left
  refine ⟨session, starts, crowd, root, goesOn, outer, inner, later, leads, trail, isOuter, isInner,
    isAnswer, fails outer List.mem_cons_self, fails inner (List.mem_cons_of_mem _ List.mem_cons_self),
    left inner List.mem_cons_self, ?_, ?_⟩
  · rw [← isOuter]
    exact startsBelow outer List.mem_cons_self
  · rw [← isInner]
    exact startsBelow inner (List.mem_cons_of_mem _ List.mem_cons_self)

end WorkerMachine
