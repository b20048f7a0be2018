import WorkerMachine.CommandLine.Execution
import WorkerMachine.Proofs.Arguments.Scripts
import WorkerMachine.Proofs.Process.Pools
/-!
# What a host's call ends with

A step of a host that runs an effect ends as the effect does, beside the threads that it has set going.
What the effect and these threads keep is true of the machine afterwards.  Where nobody asks for a
thread, the effect runs as it would alone.
-/

namespace WorkerMachine

variable {Answer : Type}

/-! ## Sessions -/

namespace Session

variable {session : Session} {kept : Machine → Prop} {goal : Answer → Prop}

theorem runBeside_keeps
    (spawns : Pool.SpawnKeeps kept goal
      (session.startThreads : Machine → List (Work (Option Answer)) × Machine))
    (holds : kept session.machine) {work : Work Answer} (keeps : work.Keeps kept goal) :
    kept (session.runBeside [work]).2.machine ∧
      ∀ answer ∈ (session.runBeside [work]).1, goal answer := by
  have gives : (do return some (← work) : Work (Option Answer)).Gives kept goal := by
    refine Process.Stays.bind keeps fun answer reached => ?_
    refine Process.stays_done fun other same => ?_
    cases same
    exact reached
  have give : ∀ process ∈ [work].map fun work => (do return some (← work) : Work (Option Answer)),
      process.Gives kept goal := by
    intro process member
    rw [List.mem_singleton.mp member]
    exact gives
  have ran := (Pool.keeps_ofProcesses holds give).run spawns moveBound
  exact ⟨ran.state, ran.answers⟩

/-- The threads that are started for scripts bring no fault about the kinds of arguments. -/
theorem startThreads_matched {bodies : Table BodyKey (List Script.Instruction)}
    (scripts : session.interpreter = Script.interpreter bodies) (goal : Answer → Prop) :
    Pool.SpawnKeeps Machine.Matched goal
      (session.startThreads : Machine → List (Work (Option Answer)) × Machine) := by
  intro machine matched
  refine ⟨matched.of_same rfl rfl, fun process isThread => ?_⟩
  obtain ⟨⟨task, thread⟩, _, rfl⟩ := List.mem_map.mp isThread
  dsimp only
  rw [scripts]
  refine Process.Stays.bind (session.setup.threadOf_matched bodies nestingBound thread task)
    fun _ _ => ?_
  exact Process.stays_done nofun

theorem startThreads_eq_nil (session : Session) {machine : Machine}
    (nobody : machine.spawned = []) :
    (session.startThreads machine : List (Work (Option Answer)) × Machine) = ([], machine) := by
  have nothing : ∀ policy : Policy, policy.allot machine.occupied ([] : List Task) = ([], []) := by
    intro policy
    cases policy <;> simp [Policy.allot, List.splitAt_eq]
  unfold startThreads
  rw [nobody, nothing]
  cases machine
  cases nobody
  rfl

theorem runBeside_of_runAlone (nobody : ∀ machine, kept machine → machine.spawned = [])
    {work : Work Answer} (keeps : work.Keeps kept fun _ => True) (holds : kept session.machine)
    {answer : Answer} {last : Machine}
    (ran : work.runAlone session.machine = some (answer, last))
    (enough : (work.bind fun answer => .done (some answer)).movesAlone session.machine ≤ moveBound) :
    session.runBeside [work] = ([answer], { session with machine := last }) := by
  have keepsOn : (work.bind fun answer => (.done (some answer) : Work (Option Answer))).Keeps kept
      fun _ => True :=
    Process.Stays.bind keeps fun _ _ => Process.stays_done trivial
  have ranOn : (work.bind fun answer => (.done (some answer) : Work (Option Answer))).runAlone
      session.machine = some (some answer, last) := by
    rw [Process.runAlone_bind, ran]
    rfl
  obtain ⟨moment, isRun⟩ : ∃ moment, Pool.run session.startThreads moveBound
      (.ofProcesses session.machine ([work].map fun work => do return some (← work))) =
        ⟨last, moment, [], [answer]⟩ :=
    Pool.exists_run_alone
      (fun machine held => session.startThreads_eq_nil (nobody machine held)) keepsOn holds ranOn
      enough (Nat.le_refl 0)
  unfold runBeside
  dsimp only
  rw [isRun]

end Session

/-! ## Steps of a host -/

namespace Host

theorem run_work (process : Work Answer) (session : Session) :
    StateT.run (ExceptT.run (work process)) session =
      (match (session.runBeside [process]).1 with
        | answer :: _ => .ok answer
        | [] => .error (.interrupted .exhausted),
      (session.runBeside [process]).2) := by
  have worked : StateT.run (ExceptT.run (work process)) session =
      StateT.run (ExceptT.run ((match (session.runBeside [process]).1 with
        | answer :: _ => return answer
        | [] => interrupt .exhausted) : HostStep Answer)) (session.runBeside [process]).2 :=
    rfl
  rw [worked]
  cases (session.runBeside [process]).1 <;> rfl

/-- An effect ends a step of the host as it has ended itself. -/
theorem run_perform (effect : Effect Answer) (session : Session) :
    StateT.run (ExceptT.run (perform effect)) session =
      (match (session.runBeside [effect.run]).1 with
        | outcome :: _ => outcome.mapError .interrupted
        | [] => .error (.interrupted .exhausted),
      (session.runBeside [effect.run]).2) := by
  unfold perform
  rw [ExceptT.run_bind, StateT.run_bind, run_work]
  rcases (session.runBeside [effect.run]).1 with _ | ⟨interruption | answer, rest⟩ <;> rfl

theorem run_callNamed (package function : String) (arguments : List Value) (session : Session) :
    StateT.run (ExceptT.run (callNamed none package function arguments)) session =
      StateT.run (ExceptT.run (perform
        ((session.stationOf Session.hostThread).callNamed package function arguments))) session := by
  have looked : StateT.run (ExceptT.run station) session =
      (.ok (session.stationOf Session.hostThread), session) :=
    rfl
  unfold callNamed
  dsimp only
  rw [ExceptT.run_bind, StateT.run_bind, looked]
  rfl

/-- The effect of a step that is interrupted by no fault about the kinds of arguments. -/
theorem matched_of_run_perform {effect : Effect Answer} (matching : effect.Matches fun _ => True)
    {session after : Session} {bodies : Table BodyKey (List Script.Instruction)}
    (scripts : session.interpreter = Script.interpreter bodies) (matched : session.machine.Matched)
    {interruption : Interruption}
    (interrupted : StateT.run (ExceptT.run (perform effect)) session =
      (.error (.interrupted interruption), after)) : interruption.Matched := by
  obtain ⟨_, answers⟩ := Session.runBeside_keeps
    (session.startThreads_matched scripts EndsMatched) matched matching.ends
  rw [run_perform] at interrupted
  obtain ⟨isOutcome, _⟩ := Prod.mk.inj interrupted
  split at isOutcome
  · next outcome rest isAnswers =>
    have ended : EndsMatched outcome := answers outcome (isAnswers ▸ List.mem_cons_self)
    cases outcome with
    | ok answer => cases isOutcome
    | error other =>
        cases isOutcome
        exact ended _ rfl
  · cases isOutcome
    exact Interruption.matched_exhausted

end Host

/-- A call that is written out comes to nothing just where the call does. -/
theorem CommandLine.run_callAndWrite_eq_error_iff (package function : String)
    (arguments : List Value) (shows : Bool) (session after : Session) (failure : HostFailure) :
    StateT.run (ExceptT.run (callAndWrite package function arguments shows)) session =
        (.error failure, after) ↔
      StateT.run (ExceptT.run (Host.callNamed none package function arguments)) session =
        (.error failure, after) := by
  unfold callAndWrite
  rw [ExceptT.run_bind, StateT.run_bind]
  rcases StateT.run (ExceptT.run (Host.callNamed none package function arguments)) session
    with ⟨other | results, middle⟩
  · constructor
    · intro same
      cases same
      rfl
    · intro same
      cases same
      rfl
  · refine iff_of_false (fun same => ?_) nofun
    cases shows <;> cases same

end WorkerMachine
