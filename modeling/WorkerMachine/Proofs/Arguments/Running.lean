import WorkerMachine.Proofs.Arguments.Rejections
import WorkerMachine.Proofs.Constants.Deferring
/-!
# Running a function

A function that is run from the command line is never called with an argument of the wrong kind.  Where
the call is for a unit, the arguments are read as its parameters want them, and reading stops at the
first one that cannot be read; where it is for no unit, the machine tells why, and nothing is
initialized.
-/

namespace WorkerMachine

def Station.calling (station : Station) (machine : Machine) (package function : String)
    (arguments : List Value) : Crowd ThreadId Machine (Option (Except Interruption (List Value))) :=
  ⟨machine, fun thread =>
    if thread = station.thread then
      some ((station.callNamed package function arguments).run.bind fun outcome =>
        .done (some outcome))
    else none⟩

/-- On a machine that has been started for a manifest a host makes one call by name.  Whatever the
scheduler is, however deep tasks may nest and however the threads interleave, a property of the machine
stays true, and if the call ends, it reaches a goal. -/
def Manifest.Loaded.CallKeeps (loaded : Manifest.Loaded) (package function : String)
    (arguments : List Value) (kept : Machine → Prop)
    (goal : Except Interruption (List Value) → Prop) : Prop :=
  ∀ (policy : Policy) (properties : Properties),
    let setup : Setup := ⟨loaded.program, policy, .full⟩
    let scripts := Script.interpreter loaded.bodies
    ∃ session, Session.start setup scripts properties loaded.constantNames = .ok session ∧
      ∀ {depth : Nat} {crowd : Crowd ThreadId Machine (Option (Except Interruption (List Value)))},
        ((setup.station scripts Session.hostThread depth).calling session.machine package function
          arguments).Leads (setup.Starts scripts depth) crowd →
        kept crowd.state ∧
          ∀ outcome, crowd.Ended Session.hostThread (some outcome) → goal outcome

namespace CommandLine

/-- The arguments of a call have been read, and the function is run with them: they are of the banks that
are declared, and no call with them ends with the fault of an argument of the wrong kind. -/
structure CallsWith (documents : Documents) (path : String) (loaded : Manifest.Loaded)
    (package function : String) (written : List String) (types : List DataType)
    (arguments : List Value) : Prop where
  read : ReadAs types written arguments
  banks : types.map DataType.bank? = arguments.map fun value => some value.bank
  runs : ∀ settings shows, run documents settings path package function written shows =
    runLoaded settings loaded package function arguments shows
  matched : loaded.CallKeeps package function arguments Machine.Matched EndsMatched

/-- A call that is for no unit is made with texts.  If only the scheduler can be built, the machine tells
why there is no such call, and is left unused. -/
structure IsRejected (documents : Documents) (path : String) (loaded : Manifest.Loaded)
    (package function : String) (written : List String) (fault : Fault) : Prop where
  runs : ∀ settings shows, run documents settings path package function written shows =
    runLoaded settings loaded package function (written.map .text) shows
  told : ∀ {settings : Configuration.SchedulerSettings} {policy : Policy},
    settings.build = .ok policy → ∀ shows,
      run documents settings path package function written shows = .error (.fault fault)
  unused : ∀ {policy : Policy} {session : Session},
    Session.start ⟨loaded.program, policy, .full⟩ (Script.interpreter loaded.bodies) .empty
      loaded.constantNames = .ok session → ∀ shows,
      (Host.run (callAndWrite package function (written.map .text) shows) session).2.2.machine.Unused
  keeps : loaded.CallKeeps package function (written.map .text) Machine.Unused
    fun outcome => outcome = .error (.fault fault)

end CommandLine

/-! ## Whoever moves -/

section Interleaving

variable {Answer : Type} {setup : Setup} {bodies : Table BodyKey (List Script.Instruction)}
  {depth : Nat} {machine later : Machine} {thread : ThreadId} {process : Work (Option Answer)}

theorem Setup.starts_matched (goal : Answer → Prop) (matched : machine.Matched)
    (starts : setup.Starts (Script.interpreter bodies) depth machine thread process later) :
    later.Matched ∧ process.Gives Machine.Matched goal := by
  cases starts with
  | start nextThread isSpawned =>
      refine ⟨matched.of_same rfl rfl, ?_⟩
      exact Process.Stays.bind (setup.threadOf_matched bodies depth thread _) fun _ _ =>
        Process.stays_done nofun

theorem Setup.not_starts_of_unused {interpreter : Interpreter} (unused : machine.Unused) :
    ¬ setup.Starts interpreter depth machine thread process later := by
  intro starts
  cases starts with
  | start nextThread isSpawned =>
      rw [unused.spawned] at isSpawned
      cases List.nil_eq_append_iff.mp isSpawned |>.2

/-- The thread of a crowd that makes one call keeps what the call keeps. -/
theorem Station.gives_of_calling {station : Station} {package function : String}
    {arguments : List Value} {kept : Machine → Prop}
    {goal : Except Interruption (List Value) → Prop}
    (keeps : (station.callNamed package function arguments).run.Keeps kept goal)
    {process : Work (Option (Except Interruption (List Value)))}
    (runs : (station.calling machine package function arguments).process thread = some process) :
    process.Gives kept goal := by
  unfold calling at runs
  dsimp only at runs
  split at runs
  · cases runs
    refine Process.Stays.bind keeps fun outcome reached => Process.stays_done fun other same => ?_
    cases same
    exact reached
  · cases runs

end Interleaving

/-! ## Sessions that start -/

theorem Host.deferConstants_same {setup : Setup} {interpreter : Interpreter}
    (constants : List (String × String)) :
    Keeps (fun session => session.setup = setup ∧ session.interpreter = interpreter)
      (deferConstants constants) := by
  induction constants with
  | nil => exact fun _ same => same
  | cons constant rest inductionHypothesis =>
      refine Keeps.bind (fun session same => ?_) fun _ => inductionHypothesis
      rw [run_deferConstant]
      dsimp only
      split
      · exact same
      · exact same

theorem Session.start_same {setup : Setup} {interpreter : Interpreter} {properties : Properties}
    {constants : List (String × String)} {session : Session}
    (starts : Session.start setup interpreter properties constants = .ok session) :
    session.setup = setup ∧ session.interpreter = interpreter := by
  rw [eq_of_start starts]
  exact Host.deferConstants_same constants
    { setup := setup, interpreter := interpreter, machine := .start setup.program properties }
    ⟨rfl, rfl⟩

theorem Session.start_matched {setup : Setup} {interpreter : Interpreter} {properties : Properties}
    {constants : List (String × String)} {session : Session}
    (starts : Session.start setup interpreter properties constants = .ok session) :
    session.machine.Matched :=
  start_keeps (fun _ _ matched => matched.of_same rfl rfl) (fun _ matched => matched.of_same rfl rfl)
    ⟨fun _ member => absurd member (Array.not_mem_empty _), nofun⟩ starts

namespace CommandLine

variable {documents : Documents} {path package function : String} {written : List String}
  {loaded : Manifest.Loaded} {unit : Callable} {fault : Fault}

theorem exists_load_of_loadManifest (loads : loadManifest documents path = .ok loaded) :
    ∃ manifest : Manifest, manifest.load = .ok loaded := by
  unfold loadManifest at loads
  split at loads
  · cases loads
  · split at loads
    · cases loads
    · next manifest _ =>
      split at loads
      · cases loads
      · next isLoaded =>
        cases loads
        exact ⟨manifest, isLoaded⟩

theorem exists_start_of_loadManifest (loads : loadManifest documents path = .ok loaded)
    (policy : Policy) (properties : Properties) :
    ∃ session, Session.start ⟨loaded.program, policy, .full⟩ (Script.interpreter loaded.bodies)
      properties loaded.constantNames = .ok session := by
  obtain ⟨manifest, isLoaded⟩ := exists_load_of_loadManifest loads
  exact Session.exists_start_of_load isLoaded rfl _ properties

theorem run_of_load (loads : loadManifest documents path = .ok loaded)
    (settings : Configuration.SchedulerSettings) (shows : Bool) :
    run documents settings path package function written shows =
      match readArguments loaded.program package function written with
      | .error cause => .error (.argument cause)
      | .ok arguments => runLoaded settings loaded package function arguments shows := by
  unfold run
  split
  · next failed => cases loads.symm.trans failed
  · next isLoaded =>
    cases loads.symm.trans isLoaded
    rfl

/-- A function of a loaded manifest comes to a fault just where the call does. -/
theorem runLoaded_eq_fault_iff {settings : Configuration.SchedulerSettings} {policy : Policy}
    (builds : settings.build = .ok policy) {session : Session}
    (starts : Session.start ⟨loaded.program, policy, .full⟩ (Script.interpreter loaded.bodies) .empty
      loaded.constantNames = .ok session) (arguments : List Value) (shows : Bool) :
    runLoaded settings loaded package function arguments shows = .error (.fault fault) ↔
      ∃ after, StateT.run (ExceptT.run (Host.callNamed none package function arguments)) session =
        (.error (.interrupted (.fault fault)), after) := by
  have same := run_callAndWrite_eq_error_iff package function arguments shows session
  unfold runLoaded
  rw [builds]
  dsimp only
  split
  · next failed => cases starts.symm.trans failed
  · next isStarted =>
    cases starts.symm.trans isStarted
    unfold Host.run
    rcases ran : StateT.run (ExceptT.run (callAndWrite package function arguments shows)) session
      with ⟨failure | output, after⟩
    · have isFailure := (same after failure).mp ran
      rw [isFailure]
      constructor
      · intro isFault
        cases failure with
        | interrupted interruption =>
            cases interruption <;> cases isFault
            exact ⟨after, rfl⟩
        | unknownContext name => cases isFault
        | unknownInvocation name => cases isFault
      · rintro ⟨last, isFault⟩
        cases isFault
        rfl
    · constructor
      · intro isFault
        cases isFault
      · rintro ⟨last, isFault⟩
        rw [(same last _).mpr isFault] at ran
        cases ran

/-- A scheduler that cannot be built is no matter of arguments. -/
theorem endsMatched_build (settings : Configuration.SchedulerSettings) :
    EndsMatched settings.build := by
  intro interruption refused
  unfold Configuration.SchedulerSettings.build at refused
  split at refused
  · cases refused
    exact Interruption.matched_fault rfl
  · split at refused
    · cases refused
      exact Interruption.matched_fault rfl
    · split at refused
      · cases refused
        exact Interruption.matched_panic _
      · cases refused

theorem matched_runLoaded_of_refused {settings : Configuration.SchedulerSettings}
    {interruption : Interruption} (refused : settings.build = .error interruption)
    {arguments : List Value} {shows : Bool}
    (isFault : runLoaded settings loaded package function arguments shows = .error (.fault fault)) :
    fault.isMismatch = false := by
  unfold runLoaded at isFault
  rw [refused] at isFault
  cases interruption <;> cases isFault
  exact endsMatched_build settings _ refused fault rfl

/-! ## Calls that are for a unit -/

section Reading

variable {arguments : List Value} (loads : loadManifest documents path = .ok loaded)
  (isTarget : loaded.program.target package function written.length = .ok unit)

include loads isTarget

/-- Arguments that have been read for a unit are lowered by the unit that the machine finds. -/
theorem endsMatched_lower (read : ReadAs unit.params.types written arguments) :
    ∀ found other, loaded.program.package package = .ok found →
      Program.function found package function = .ok other →
      EndsMatched (Marshalling.lower other.params arguments) := by
  intro found other isPackage isFunction
  obtain ⟨manifest, isLoaded⟩ := exists_load_of_loadManifest loads
  obtain ⟨declared, isDeclared, isUnit, _⟩ := Program.target_eq_ok_iff.mp isTarget
  rw [Program.package, isDeclared] at isPackage
  cases isPackage
  rw [Program.function, isUnit] at isFunction
  cases isFunction
  obtain ⟨file, lowers⟩ := read.exists_lower (Manifest.laidOut_of_target isLoaded isTarget)
  rw [lowers]
  intro interruption same
  cases same

theorem callNamed_matches_of_read (read : ReadAs unit.params.types written arguments)
    (policy : Policy) (depth : Nat) :
    ((Setup.station ⟨loaded.program, policy, .full⟩ (Script.interpreter loaded.bodies)
      Session.hostThread depth).callNamed package function arguments).Matches fun _ => True := by
  refine Station.callNamed_matches (Setup.station_runsMatched _ loaded.bodies _ depth) ?_
  rw [Setup.toSetup_station]
  exact endsMatched_lower loads isTarget read

/-- With arguments that have been read for a unit, a call is not ended by the fault of an argument of the
wrong kind, however its threads interleave. -/
theorem callKeeps_of_read (read : ReadAs unit.params.types written arguments) :
    loaded.CallKeeps package function arguments Machine.Matched EndsMatched := by
  intro policy properties setup scripts
  obtain ⟨session, starts⟩ := exists_start_of_loadManifest loads policy properties
  refine ⟨session, starts, fun {depth crowd} leads => ?_⟩
  have matching := callNamed_matches_of_read loads isTarget read policy depth
  obtain ⟨matched, reached⟩ := Crowd.gives_of_leads Machine.Matched EndsMatched
    (fun _ _ _ _ held starting => Setup.starts_matched EndsMatched held starting)
    (Session.start_matched starts) (fun _ _ runs => Station.gives_of_calling matching.ends runs) leads
  exact ⟨matched, reached Session.hostThread⟩

/-- A function that is run with arguments that have been read for it does not come to the fault of an
argument of the wrong kind. -/
theorem matched_runLoaded (read : ReadAs unit.params.types written arguments)
    (settings : Configuration.SchedulerSettings) (shows : Bool)
    (isFault : runLoaded settings loaded package function arguments shows = .error (.fault fault)) :
    fault.isMismatch = false := by
  cases builds : settings.build with
  | error interruption => exact matched_runLoaded_of_refused builds isFault
  | ok policy =>
      obtain ⟨session, starts⟩ := exists_start_of_loadManifest loads policy .empty
      obtain ⟨sameSetup, sameScripts⟩ := Session.start_same starts
      obtain ⟨after, interrupted⟩ := (runLoaded_eq_fault_iff builds starts arguments shows).mp isFault
      rw [Host.run_callNamed, Session.stationOf, sameSetup, sameScripts] at interrupted
      have matching := callNamed_matches_of_read loads isTarget read policy Session.nestingBound
      exact Host.matched_of_run_perform matching sameScripts (Session.start_matched starts)
        interrupted fault rfl

end Reading

/-! ## Calls that are for no unit -/

/-- What a call is rejected with is not about the kinds of arguments. -/
theorem matched_target (program : Program) (count : Nat) :
    Matched (program.target package function count) := by
  unfold Program.target
  split
  · exact matched_error rfl
  · split
    · exact matched_error rfl
    · split
      · exact matched_ok _
      · exact matched_error rfl

section Rejecting

variable {arguments : List Value}
  (rejected : loaded.program.target package function arguments.length = .error fault)

include rejected

/-- On a machine that has just been started, a call that is for no unit comes to its fault, and leaves
the machine unused. -/
theorem exists_run_callNamed_of_rejected {policy : Policy} {properties : Properties}
    {session : Session}
    (starts : Session.start ⟨loaded.program, policy, .full⟩ (Script.interpreter loaded.bodies)
      properties loaded.constantNames = .ok session) :
    ∃ after, StateT.run (ExceptT.run (Host.callNamed none package function arguments)) session =
      (.error (.interrupted (.fault fault)), after) ∧ after.machine.Unused := by
  refine Host.exists_run_callNamed_of_target (Session.start_unused starts) ?_
  rw [(Session.start_same starts).1]
  exact rejected

/-- A call that is for no unit leaves the machine unused and fails, however its threads interleave. -/
theorem callKeeps_of_rejected (loads : loadManifest documents path = .ok loaded) :
    loaded.CallKeeps package function arguments Machine.Unused
      fun outcome => outcome = .error (.fault fault) := by
  intro policy properties setup scripts
  obtain ⟨session, starts⟩ := exists_start_of_loadManifest loads policy properties
  refine ⟨session, starts, fun {depth crowd} leads => ?_⟩
  have refused : (setup.station scripts Session.hostThread depth).program.target package function
      arguments.length = .error fault := by
    rw [Setup.toSetup_station]
    exact rejected
  obtain ⟨unused, reached⟩ := Crowd.gives_of_leads Machine.Unused
    (fun outcome => outcome = .error (.fault fault))
    (fun _ _ _ _ held starting => absurd starting (Setup.not_starts_of_unused held))
    (Session.start_unused starts)
    (fun _ _ runs => Station.gives_of_calling (Station.callNamed_unused refused) runs) leads
  exact ⟨unused, reached Session.hostThread⟩

end Rejecting

theorem isRejected_of_target (loads : loadManifest documents path = .ok loaded)
    (rejected : loaded.program.target package function written.length = .error fault) :
    IsRejected documents path loaded package function written fault := by
  have refused : loaded.program.target package function
      (written.map Value.text).length = .error fault := by
    rw [List.length_map]
    exact rejected
  have runs : ∀ settings shows, run documents settings path package function written shows =
      runLoaded settings loaded package function (written.map .text) shows := by
    intro settings shows
    rw [run_of_load loads, readArguments_eq, rejected]
  refine ⟨runs, ?_, ?_, callKeeps_of_rejected refused loads⟩
  · intro settings policy builds shows
    obtain ⟨session, starts⟩ := exists_start_of_loadManifest loads policy .empty
    obtain ⟨after, fails, _⟩ := exists_run_callNamed_of_rejected refused starts
    rw [runs]
    exact (runLoaded_eq_fault_iff builds starts _ shows).mpr ⟨after, fails⟩
  · intro policy session starts shows
    obtain ⟨after, fails, unused⟩ := exists_run_callNamed_of_rejected refused starts
    have ran := (run_callAndWrite_eq_error_iff package function _ shows session after _).mpr fails
    unfold Host.run
    rw [ran]
    exact unused.of_same rfl rfl rfl rfl rfl

/-- Reading the arguments keeps faults about their kinds off a machine.  Whatever function of a manifest
that can be loaded is run with whatever texts, this is never the fault that comes of it.  If the call is
for a unit, then reading stops at the first text that is not a value of the type of its parameter, before
a scheduler is built and whether or not it can be built; or all have been read, and the function is run
with arguments of the banks that its parameters have.  If the package or the function is unknown or the
number of texts is wrong, the machine tells so as soon as the scheduler is built, and no init has been
begun. -/
theorem reading_shields_calls (loads : loadManifest documents path = .ok loaded)
    (package function : String) (written : List String) :
    (∀ settings shows position declared actual,
      run documents settings path package function written shows ≠
        .error (.fault (.bankMismatch position declared actual))) ∧
    match loaded.program.target package function written.length with
    | .ok unit =>
      (∃ position type text cause,
        FirstUnread unit.params.types written position type text cause ∧
        ∀ settings shows, run documents settings path package function written shows =
          .error (.argument cause)) ∨
      ∃ arguments, CallsWith documents path loaded package function written unit.params.types arguments
    | .error fault => IsRejected documents path loaded package function written fault := by
  have shielded : ∀ {settings shows},
      (∀ fault, run documents settings path package function written shows = .error (.fault fault) →
        fault.isMismatch = false) → ∀ position declared actual,
        run documents settings path package function written shows ≠
          .error (.fault (.bankMismatch position declared actual)) :=
    fun matched position declared actual ran => absurd (matched _ ran) nofun
  cases isTarget : loaded.program.target package function written.length with
  | error fault =>
      have isRejected := isRejected_of_target loads isTarget
      refine ⟨fun settings shows => shielded fun other ran => ?_, isRejected⟩
      cases builds : settings.build with
      | error interruption =>
          rw [isRejected.runs] at ran
          exact matched_runLoaded_of_refused builds ran
      | ok policy =>
          rw [isRejected.told builds] at ran
          cases ran
          exact matched_target loaded.program written.length fault isTarget
  | ok unit =>
      obtain ⟨manifest, isLoaded⟩ := exists_load_of_loadManifest loads
      have sameLength := Manifest.length_types_of_target isLoaded isTarget
      have runs : ∀ settings shows, run documents settings path package function written shows =
          match readAll unit.params.types written with
          | .error cause => .error (.argument cause)
          | .ok arguments => runLoaded settings loaded package function arguments shows := by
        intro settings shows
        rw [run_of_load loads, readArguments_eq, isTarget]
      cases isRead : readAll unit.params.types written with
      | error cause =>
          rw [isRead] at runs
          obtain ⟨position, type, text, first⟩ := readAll_eq_error_iff.mp isRead
          refine ⟨fun settings shows => shielded fun other ran => ?_,
            .inl ⟨position, type, text, cause, first, runs⟩⟩
          rw [runs] at ran
          cases ran
      | ok arguments =>
          rw [isRead] at runs
          have read := (readAll_eq_ok_iff sameLength).mp isRead
          refine ⟨fun settings shows => shielded fun other ran => ?_,
            .inr ⟨arguments, read, read.banks, runs, callKeeps_of_read loads isTarget read⟩⟩
          rw [runs] at ran
          exact matched_runLoaded loads isTarget read settings shows ran

/-- A manifest of a package with an init unit and a function of an integer and a boolean. -/
def Documents.switch : Documents := fun _ =>
  .ok (.table [("packages", .array [.table [
    ("name", .text "switch"),
    ("init", .table [("workers", .array [.table []])]),
    ("functions", .array [.table [
      ("name", .text "set"),
      ("params", .array [.text "int", .text "boolean"]),
      ("workers", .array [.table []])]])]])])

/-- Texts for the function of this manifest: one of them is no boolean, both are read, there are too few,
and the function is unknown. -/
theorem reading_shields_calls_of_switch :
    ∃ loaded, loadManifest Documents.switch "switch" = .ok loaded ∧
      (∀ settings shows, run Documents.switch settings "switch" "switch" "set" ["7", "maybe"] shows =
        .error (.argument (.boolean "maybe"))) ∧
      CallsWith Documents.switch "switch" loaded "switch" "set" ["7", "true"] [.int, .boolean]
        [.int 7, .boolean true] ∧
      IsRejected Documents.switch "switch" loaded "switch" "set" ["7"]
        (.arityMismatch "switch:set" 2 1) ∧
      IsRejected Documents.switch "switch" loaded "switch" "reset" []
        (.functionNotFound "switch" "reset") := by
  have targets : (loadManifest Documents.switch "switch").map (fun loaded =>
      ((loaded.program.target "switch" "set" 2).map fun unit => unit.params.types,
        (loaded.program.target "switch" "set" 1).map fun unit => unit.params.types,
        (loaded.program.target "switch" "reset" 0).map fun unit => unit.params.types)) =
      .ok (.ok [.int, .boolean], .error (.arityMismatch "switch:set" 2 1),
        .error (.functionNotFound "switch" "reset")) :=
    rfl
  have readsBoth : readAll [.int, .boolean] ["7", "true"] = .ok [.int 7, .boolean true] := rfl
  have readsOne : readAll [.int, .boolean] ["7", "maybe"] = .error (.boolean "maybe") := rfl
  obtain ⟨loaded, loads⟩ : ∃ loaded, loadManifest Documents.switch "switch" = .ok loaded :=
    ⟨_, rfl⟩
  rw [loads] at targets
  obtain ⟨isSet, others⟩ := Prod.mk.inj (Except.ok.inj targets)
  obtain ⟨isShort, isUnknown⟩ := Prod.mk.inj others
  have rejected : ∀ {outcome : Except Fault Callable} {fault : Fault},
      (outcome.map fun unit => unit.params.types) = .error fault → outcome = .error fault := by
    rintro (other | unit) fault same
    · cases same
      rfl
    · cases same
  have readsOrStops (written : List String) (two : written.length = 2) := by
    have shields := (reading_shields_calls loads "switch" "set" written).2
    rw [two] at shields
    exact shields
  cases isTarget : loaded.program.target "switch" "set" 2 with
  | error fault =>
      rw [isTarget] at isSet
      cases isSet
  | ok unit =>
      rw [isTarget] at isSet readsOrStops
      obtain isTypes : unit.params.types = [.int, .boolean] := Except.ok.inj isSet
      dsimp only at readsOrStops
      rw [isTypes] at readsOrStops
      refine ⟨loaded, loads, ?_, ?_, ?_, ?_⟩
      · obtain ⟨position, type, text, cause, first, stops⟩ | ⟨arguments, calls⟩ :=
          readsOrStops ["7", "maybe"] rfl
        · have isCause := readAll_eq_error_iff.mpr ⟨position, type, text, first⟩
          rw [readsOne] at isCause
          cases isCause
          exact stops
        · have isRead := (readAll_eq_ok_iff rfl).mpr calls.read
          rw [readsOne] at isRead
          cases isRead
      · obtain ⟨position, type, text, cause, first, _⟩ | ⟨arguments, calls⟩ :=
          readsOrStops ["7", "true"] rfl
        · have isCause := readAll_eq_error_iff.mpr ⟨position, type, text, first⟩
          rw [readsBoth] at isCause
          cases isCause
        · have isRead := (readAll_eq_ok_iff rfl).mpr calls.read
          rw [readsBoth] at isRead
          cases isRead
          exact calls
      · have shields := (reading_shields_calls loads "switch" "set" ["7"]).2
        rw [List.length_singleton, rejected isShort] at shields
        exact shields
      · have shields := (reading_shields_calls loads "switch" "reset" []).2
        rw [List.length_nil, rejected isUnknown] at shields
        exact shields

end CommandLine

end WorkerMachine
