import WorkerMachine.Proofs.Arguments.Hosts
import WorkerMachine.Proofs.Arguments.Reading
import WorkerMachine.Proofs.Clearance.Hosts
/-!
# Calls that are for no unit

A call by name that is for no unit opens a root, fails, and forgets the root.  It never comes to the gate
of a package, and nothing is scheduled for it.
-/

namespace WorkerMachine

/-- No function has been called on a machine, and nothing has been counted, no init either. -/
structure Machine.Unused (machine : Machine) : Prop extends Machine.Fresh machine where
  tallies : machine.tallies = {}

theorem Machine.Unused.of_same {machine later : Machine} (unused : machine.Unused)
    (gate : later.gate = machine.gate) (history : later.history = machine.history)
    (queue : later.queue = machine.queue) (spawned : later.spawned = machine.spawned)
    (tallies : later.tallies = machine.tallies) : later.Unused where
  gate := gate.trans unused.gate
  history := history.trans unused.history
  queue := queue.trans unused.queue
  spawned := spawned.trans unused.spawned
  tallies := tallies.trans unused.tallies

/-- A session starts with a machine that is not used yet. -/
theorem Session.start_unused {setup : Setup} {interpreter : Interpreter} {properties : Properties}
    {constants : List (String × String)} {session : Session}
    (starts : Session.start setup interpreter properties constants = .ok session) :
    session.machine.Unused :=
  start_keeps (fun _ _ unused => unused.of_same rfl rfl rfl rfl rfl)
    (fun _ unused => unused.of_same rfl rfl rfl rfl rfl)
    ⟨Machine.start_fresh setup.program properties, rfl⟩ starts

namespace Station

variable {station : Station} {package function : String} {arguments : List Value} {fault : Fault}
  (rejected : station.program.target package function arguments.length = .error fault)

include rejected

/-- Below a context, a call that is for no unit fails before it takes a step. -/
theorem run_callNamedIn_of_target (parent : Context) :
    (station.callNamedIn parent package function arguments).run = .done (.error (.fault fault)) := by
  unfold Program.target at rejected
  split at rejected
  · next noPackage =>
    cases rejected
    have notFound : station.program.package package = .error (.packageNotFound package) := by
      rw [Program.package, noPackage]
    unfold callNamedIn
    rw [notFound]
    rfl
  · next found isFound =>
    have isPackage : station.program.package package = .ok found := by
      rw [Program.package, isFound]
    split at rejected
    · next noFunction =>
      cases rejected
      have notFound : Program.function found package function =
          .error (.functionNotFound package function) := by
        rw [Program.function, noFunction]
      unfold callNamedIn
      rw [isPackage]
      change (Effect.ofExcept (Program.function found package function) >>= _ : Effect _).run = _
      rw [notFound]
      rfl
    · next unit isUnit =>
      have isFunction : Program.function found package function = .ok unit := by
        rw [Program.function, isUnit]
      split at rejected
      · cases rejected
      · next wrong =>
        cases rejected
        exact Script.run_callNamedIn_of_arity isPackage isFunction parent wrong

/-- By itself, a call that is for no unit opens a root, fails and forgets the root. -/
theorem run_callNamed_of_target : (station.callNamed package function arguments).run =
    (openRoot Machine.ownArena Machine.ownProperties).run.bind fun opened =>
      match opened with
      | .ok root => root.release.bind fun _ => .done (.error (.fault fault))
      | .error interruption => .done (.error interruption) := by
  unfold callNamed
  change Process.bind _ _ = _
  congr 1
  funext opened
  cases opened with
  | error interruption => rfl
  | ok root =>
      change (Effect.followedBy (station.callNamedIn root package function arguments)
        root.release).run = _
      have failed := run_callNamedIn_of_target rejected root
      unfold Effect.followedBy
      change ((station.callNamedIn root package function arguments).run >>= _ : Work _) = _
      rw [failed]
      rfl

/-- A call that is for no unit leaves the machine unused, whoever else moves, and fails. -/
theorem callNamed_unused : (station.callNamed package function arguments).run.Keeps Machine.Unused
    fun outcome => outcome = .error (.fault fault) := by
  have released : ∀ root : Context, (root.release.bind fun _ =>
      (.done (.error (.fault fault)) : Work (Except Interruption (List Value)))).Keeps Machine.Unused
        fun outcome => outcome = .error (.fault fault) := by
    intro root machine hands held _
    have unused : machine.Unused := held
    exact ⟨fun _ => ⟨trivial, (), unused.of_same rfl rfl rfl rfl rfl, rfl, rfl⟩, fun _ => trivial⟩
  rw [run_callNamed_of_target rejected]
  intro machine hands held _
  have unused : machine.Unused := held
  exact ⟨fun _ => ⟨trivial, (), unused.of_same rfl rfl rfl rfl rfl, released _⟩, fun _ => trivial⟩

end Station

/-- A host whose call is for no unit is told so, and the machine is left unused. -/
theorem Host.exists_run_callNamed_of_target {package function : String} {arguments : List Value}
    {fault : Fault} {session : Session} (unused : session.machine.Unused)
    (rejected : session.setup.program.target package function arguments.length = .error fault) :
    ∃ after, StateT.run (ExceptT.run (callNamed none package function arguments)) session =
      (.error (.interrupted (.fault fault)), after) ∧ after.machine.Unused := by
  obtain ⟨station, isStation⟩ : ∃ station, session.stationOf Session.hostThread = station :=
    ⟨_, rfl⟩
  have refused : station.program.target package function arguments.length = .error fault := by
    rw [← isStation, Session.stationOf, Setup.toSetup_station]
    exact rejected
  obtain ⟨last, ran⟩ : ∃ last, (station.callNamed package function arguments).run.runAlone
      session.machine = some (.error (.fault fault), last) := by
    rw [Station.run_callNamed_of_target refused]
    exact ⟨_, rfl⟩
  have moves : ((station.callNamed package function arguments).run.bind fun outcome =>
      (.done (some outcome) : Work (Option (Except Interruption (List Value))))).movesAlone
        session.machine = 3 := by
    rw [Station.run_callNamed_of_target refused]
    rfl
  have enough : 3 ≤ Session.moveBound := by decide
  have keeps : (station.callNamed package function arguments).run.Keeps Machine.Unused
      fun _ => True :=
    (Station.callNamed_unused refused).weaken fun _ _ => trivial
  have isRun := Session.runBeside_of_runAlone (fun _ held => held.spawned) keeps unused ran
    (moves ▸ enough)
  have spawnsNobody : Pool.SpawnKeeps Machine.Unused (fun _ => True) (session.startThreads :
      Machine → List (Work (Option (Except Interruption (List Value)))) × Machine) := by
    intro machine held
    rw [session.startThreads_eq_nil held.spawned]
    exact ⟨held, nofun⟩
  obtain ⟨kept, _⟩ := Session.runBeside_keeps spawnsNobody unused keeps
  rw [isRun] at kept
  refine ⟨{ session with machine := last }, ?_, kept⟩
  rw [run_callNamed, isStation, run_perform, isRun]
  rfl

end WorkerMachine
