import WorkerMachine.Proofs.Gate.Deadlock
import WorkerMachine.Proofs.Machine.Threads
import WorkerMachine.Proofs.Process.Alone
import WorkerMachine.Proofs.Script.Following
/-!
# The machine crosses the gate turn by turn

Each step of a machine that changes the gate is a turn of the thread that takes it, and steps
between two turns leave the gate alone.  So whatever threads pass the gate, as long as they come to
it only by `ensureInitialized`, the gate and the errands of the threads are among those that
interleaved turns come to.
-/

namespace WorkerMachine

/-- The discipline of threads that change the gate by turns only.  The token of a thread is the
stack of its errands, and a thread in a phase of passing the gate waits only if the phase has to. -/
def Discipline.crossing : Discipline ThreadId Machine (List Errand) where
  fits := fun machine hands => Reachable machine.gate hands
  permits := fun _ _ => True
  excuses := fun machine hands thread => ∀ package phase rest,
    hands thread = .passing package phase :: rest → machine.gate.ready package phase = false
  permits_refl := fun _ => trivial

/-- Errands of which the last one is not a passage. -/
def NotPassing (errands : List Errand) : Prop :=
  ∀ package phase rest, errands ≠ .passing package phase :: rest

theorem MayCall.notPassing {errands : List Errand} (mayCall : MayCall errands) :
    NotPassing errands := by
  rintro package phase rest rfl
  exact mayCall

theorem Discipline.crossing_tolerates {thread : ThreadId} {errands : List Errand}
    (notPassing : NotPassing errands) : Discipline.crossing.Tolerates thread errands where
  tolerates := by
    intro machine later hands fits _ _ sameGate
    have reachable : Reachable later.gate hands := by
      rw [sameGate]
      exact fits
    exact ⟨trivial, reachable⟩
  excuses := by
    intro machine hands _ holding package phase rest passing
    exact absurd (holding.symm.trans passing) (notPassing package phase rest)

/-- The init of a package has run, and its cell is still to be settled. -/
def InitOver (package : String) (errands token : List Errand) : Prop :=
  token = .claimed package :: errands ∨ token = .unmarked package :: errands

/-- The init of a package is under way or over, and its cell is still to be settled. -/
def InitOpen (package : String) (errands token : List Errand) : Prop :=
  ∃ errand, token = errand :: errands ∧ errand.runs? = some package ∧ errand.awaits? = none

/-- What an interruption makes of an init: a fault ends it, and everything else is going to unwind
it. -/
def InitBroken (package : String) (errands : List Errand) : Interruption → List Errand → Prop
  | .fault _, token => InitOver package errands token
  | .panic _, token | .exhausted, token => InitOpen package errands token

section Inits

variable {package : String} {errands token : List Errand}

theorem InitOpen.notPassing (isOpen : InitOpen package errands token) : NotPassing token := by
  obtain ⟨errand, rfl, runs, awaits⟩ := isOpen
  intro passed phase rest same
  cases same
  cases phase with
  | beginInit =>
      cases awaits
  | _ =>
      cases runs

theorem InitOver.isOpen (isOver : InitOver package errands token) :
    InitOpen package errands token := by
  rcases isOver with rfl | rfl
  · exact ⟨_, rfl, rfl, rfl⟩
  · exact ⟨_, rfl, rfl, rfl⟩

theorem InitOver.broken (isOver : InitOver package errands token) (interruption : Interruption) :
    InitBroken package errands interruption token := by
  cases interruption with
  | fault fault =>
      exact isOver
  | panic payload =>
      exact isOver.isOpen
  | exhausted =>
      exact isOver.isOpen

theorem InitBroken.isOpen {interruption : Interruption}
    (broken : InitBroken package errands interruption token) : InitOpen package errands token := by
  cases interruption with
  | fault fault =>
      exact InitOver.isOpen broken
  | panic payload =>
      exact broken
  | exhausted =>
      exact broken

end Inits

/-! ## Passing the gate -/

theorem afterPhase_of_unanswered {package : String} {phase : GatePhase} {rest : List Errand}
    (unanswered : phase.answer? = none) :
    afterPhase package rest phase = .passing package phase :: rest := by
  cases phase with
  | answered answer =>
      cases unanswered
  | _ =>
      rfl

namespace Station

variable {station : Station}

/-- A thread that goes through phases of a passage takes one turn for each of them, and comes as
near to the answer as it has gone through phases. -/
theorem advancePhases_follows (package : String) (caller : ContextId) (rest : List Errand)
    (bound : Nat) (phase : GatePhase) :
    (station.advancePhases package caller bound phase).Follows .crossing station.thread
      (afterPhase package rest phase) fun last token =>
        token = afterPhase package rest last ∧
          last.untilCounted ≤ phase.untilCounted - bound ∧
          (phase.untilCounted = 0 → last.untilAnswered ≤ phase.untilAnswered - bound) := by
  induction bound generalizing phase with
  | zero =>
      exact ⟨rfl, le_refl _, fun _ => le_refl _⟩
  | succ bound inductionHypothesis =>
      cases answered : phase.answer? with
      | some answer =>
          cases phase <;> cases answered
          exact ⟨rfl, Nat.zero_le _, fun _ => Nat.zero_le _⟩
      | none =>
          rw [advancePhases_succ station package caller bound answered,
            afterPhase_of_unanswered answered]
          intro machine hands fits holding
          refine ⟨fun isReady => ?_, fun notReady => ?_⟩
          · beta_reduce
            generalize (fun context : ContextId =>
              ((machine.arena Machine.ownArena).ancestry caller).contains context) = descent
            have turn : Turn station.thread machine.gate (hands station.thread)
                (machine.gate.advance station.thread package descent phase).2
                (afterPhase package rest
                  (machine.gate.advance station.thread package descent phase).1) := by
              rw [holding]
              exact .advance descent answered isReady
            refine ⟨trivial, _, Reachable.turn fits turn, ?_⟩
            refine (inductionHypothesis _).weaken fun last token reached => ?_
            have counted := GatePhase.untilCounted_advance station.thread package descent
              machine.gate phase
            obtain ⟨inStep, nearCount, nearAnswer⟩ := reached
            refine ⟨inStep, by omega, fun isCounted => ?_⟩
            have nearer := GatePhase.untilAnswered_advance station.thread package descent
              machine.gate phase isCounted
            have fewer := nearAnswer (by omega)
            omega
          · intro passed other below passing
            rw [holding] at passing
            cases passing
            exact notReady

/-- A call that comes to the gate takes the turn in which it comes along with its first phase. -/
theorem follows_of_called {errands : List Errand} (mayCall : MayCall errands) (package : String)
    (caller : ContextId) (bound : Nat) {goal : GatePhase → List Errand → Prop}
    (called : (station.advancePhases package caller (bound + 1) .lookForMark).Follows .crossing
      station.thread (.passing package .lookForMark :: errands) goal) :
    (station.advancePhases package caller (bound + 1) .lookForMark).Follows .crossing
      station.thread errands goal := by
  rw [advancePhases_succ station package caller bound rfl] at called ⊢
  intro machine hands fits holding
  have comes : Turn station.thread machine.gate (hands station.thread) machine.gate
      (.passing package .lookForMark :: errands) := by
    rw [holding]
    exact .call package mayCall
  obtain ⟨taken, _⟩ := called machine _ (Reachable.turn fits comes) (Function.update_self ..)
  refine ⟨fun isReady => ?_, fun never => by cases never⟩
  obtain ⟨_, exchanged, fitsAfter, goesOn⟩ := taken isReady
  rw [Function.update_idem] at fitsAfter
  exact ⟨trivial, exchanged, fitsAfter, goesOn⟩

/-- A passage always ends with an answer of the gate. -/
theorem passGate_follows {errands : List Errand} (mayCall : MayCall errands) (package : String)
    (caller : ContextId) :
    (station.passGate package caller).Follows .crossing station.thread errands
      fun last token => last.answer?.isSome = true ∧ token = afterPhase package errands last := by
  have counted := follows_of_called mayCall package caller 5
    (station.advancePhases_follows package caller errands 6 .lookForMark)
  refine Process.Follows.bind counted ?_
  rintro middle token ⟨rfl, nearCount, _⟩
  have isCounted : middle.untilCounted = 0 := Nat.le_zero.mp nearCount
  refine (station.advancePhases_follows package caller errands _ middle).weaken ?_
  rintro last token ⟨inStep, stillCounted, nearAnswer⟩
  have isAnswered := nearAnswer isCounted
  exact ⟨GatePhase.isSome_answer?_of_done (by omega) (by omega), inStep⟩

/-! ## Inits -/

theorem alterGate_follows {change : Gate → Gate} {before errands : List Errand}
    {upset : Interruption → List Errand → Prop}
    (turn : ∀ gate, Turn station.thread gate before (change gate) errands) :
    (alterGate change).Follows .crossing station.thread before
      (fun _ token => token = errands) upset := by
  refine Effect.follows_modify fun machine hands fits holding => ?_
  have taken : Turn station.thread machine.gate (hands station.thread) (change machine.gate)
      errands := by
    rw [holding]
    exact turn machine.gate
  exact ⟨trivial, errands, Reachable.turn fits taken, rfl⟩

variable {package : Package} {errands : List Errand}

theorem resolvePending_over {token : List Errand} (isOver : InitOver package.name errands token) :
    (resolvePending package).Follows .crossing station.thread token
      (fun _ => InitOver package.name errands) (InitBroken package.name errands) := by
  have tolerance : Discipline.crossing.Tolerates station.thread token :=
    Discipline.crossing_tolerates isOver.isOpen.notPassing
  have stays := resolvePending_stays tolerance package
  refine Effect.Follows.weaken stays ?_ ?_
  · rintro _ _ ⟨rfl, _⟩
    exact isOver
  · rintro interruption _ rfl
    exact isOver.broken interruption

/-- The body of an init is carried out with one token in hand, and a fault of it does not interrupt
the init. -/
theorem attemptUnit_follows {token : List Errand} (mayCall : MayCall token)
    (tasks : station.TasksStay .crossing station.thread token) (unit : Callable)
    (context : Context) :
    (station.callUnit unit).attempt.Follows .crossing station.thread context token
      (fun _ _ last => last = token) fun interruption _ last =>
        last = token ∧ ∀ fault, interruption ≠ .fault fault := by
  have tolerance : Discipline.crossing.Tolerates station.thread token :=
    Discipline.crossing_tolerates mayCall.notPassing
  have stays := callRegisters_stays tolerance.mild tasks unit [] [] context
  refine Routine.Follows.attempt (Routine.Follows.weaken stays ?_ ?_)
  · rintro _ _ last ⟨same, _⟩
    exact same
  · rintro interruption _ last ⟨same, _⟩
    cases interruption with
    | fault fault =>
        exact same
    | panic payload =>
        exact ⟨same, by simp⟩
    | exhausted =>
        exact ⟨same, by simp⟩

/-- The init unit is called between the turn that marks the package and the turn that removes the
mark. -/
theorem initUnit_follows (tasks : ∀ token, MayCall token →
      station.TasksStay .crossing station.thread token) (unit : Callable) (context : Context) :
    Effect.Follows .crossing station.thread (do
        Effect.modify (Machine.callInit package.name ⟨context.id, station.thread⟩)
        let (outcome, after) ← ((station.callUnit unit).attempt.runOn context : Work _)
        let invoked ← ExceptT.mk (pure outcome)
        alterGate fun gate => gate.unmark package.name
        Effect.ofExcept (initOutcome station.traceStyle package.name after.error invoked)
        resolvePending package)
      (.claimed package.name :: errands) (fun _ => InitOver package.name errands)
      (InitBroken package.name errands) := by
  have marked : (Effect.modify (Machine.callInit package.name ⟨context.id, station.thread⟩)).Follows
      .crossing station.thread (.claimed package.name :: errands)
      (fun _ token => token = .marked package.name context.id :: errands)
      (InitBroken package.name errands) := by
    refine Effect.follows_modify fun machine hands fits holding => ?_
    have taken : Turn station.thread machine.gate (hands station.thread)
        (machine.gate.mark package.name ⟨context.id, station.thread⟩)
        (.marked package.name context.id :: errands) := by
      rw [holding]
      exact .mark context.id
    exact ⟨trivial, _, Reachable.turn fits taken, rfl⟩
  refine marked.bind ?_
  rintro _ _ rfl
  have isOpen : InitOpen package.name errands (.marked package.name context.id :: errands) :=
    ⟨_, rfl, rfl, rfl⟩
  have mayCall : MayCall (.marked package.name context.id :: errands) := trivial
  refine Effect.Follows.bind (Effect.follows_work
    (attemptUnit_follows mayCall (tasks _ mayCall) unit context)) ?_
  rintro ⟨outcome, after⟩ token reached
  cases outcome with
  | error interruption =>
      obtain ⟨rfl, notFault⟩ := reached
      have thrown : (throw interruption : Effect (Except Fault Unit)).Follows .crossing
          station.thread (.marked package.name context.id :: errands) (fun _ _ => False)
          (InitBroken package.name errands) := by
        refine Effect.follows_throw ?_
        cases interruption with
        | fault fault =>
            exact absurd rfl (notFault fault)
        | panic payload =>
            exact isOpen
        | exhausted =>
            exact isOpen
      exact thrown.bind fun _ _ never => never.elim
  | ok invoked =>
      obtain rfl := reached
      have unmarked : (alterGate fun gate => gate.unmark package.name).Follows .crossing
          station.thread (.marked package.name context.id :: errands)
          (fun _ token => token = .unmarked package.name :: errands)
          (InitBroken package.name errands) :=
        alterGate_follows fun gate => .unmark
      refine unmarked.bind ?_
      rintro _ _ rfl
      have isOver : InitOver package.name errands (.unmarked package.name :: errands) := .inr rfl
      refine Effect.Follows.bind (Effect.follows_ofExcept (fun _ _ => isOver)
        fun fault _ => isOver.broken (.fault fault)) ?_
      exact fun _ _ stillOver => resolvePending_over stillOver

/-- An init ends with its cell still to be settled, or is broken off. -/
theorem runInit_follows (tasks : ∀ token, MayCall token →
      station.TasksStay .crossing station.thread token) (parent : Context) :
    (station.runInit package parent).Follows .crossing station.thread
      (.claimed package.name :: errands) (fun _ => InitOver package.name errands)
      (InitBroken package.name errands) := by
  have isOver : InitOver package.name errands (.claimed package.name :: errands) := .inl rfl
  have tolerance : Discipline.crossing.Tolerates station.thread
      (.claimed package.name :: errands) :=
    Discipline.crossing_tolerates isOver.isOpen.notPassing
  have broken : ∀ interruption last, last = .claimed package.name :: errands →
      InitBroken package.name errands interruption last := by
    rintro interruption _ rfl
    exact isOver.broken interruption
  unfold runInit
  split
  · exact resolvePending_over isOver
  · next unit _ =>
    refine Effect.Follows.bind (Effect.Follows.weaken (tally_stays tolerance.mild _)
      (fun _ _ => id) broken) ?_
    rintro _ _ ⟨rfl, _⟩
    refine Effect.Follows.bind (Effect.Follows.weaken (openChild_stays tolerance.mild parent)
      (fun _ _ => id) broken) ?_
    rintro context _ ⟨rfl, _⟩
    refine Effect.Follows.followedBy (initUnit_follows tasks unit context) ?_
    intro outcome token reached
    have isOpen : InitOpen package.name errands token := by
      cases outcome with
      | ok answer =>
          exact InitOver.isOpen reached
      | error interruption =>
          exact InitBroken.isOpen reached
    have released : context.release.Stays .crossing station.thread token fun _ => True :=
      release_stays (Discipline.crossing_tolerates isOpen.notPassing).mild context
    refine Process.Follows.weaken released ?_
    rintro _ _ ⟨rfl, _⟩
    exact reached

/-- Whatever answer the gate gives, a call has no errand left at its end that it did not have at its
beginning. -/
theorem ensureInitialized_crosses (station : Station) (tasks : ∀ token, MayCall token →
      station.TasksStay .crossing station.thread token) (token : List Errand)
    (mayCall : MayCall token) : station.InitsStay .crossing station.thread token := by
  intro package caller
  unfold ensureInitialized
  refine Effect.Follows.bind (Effect.follows_work
    (passGate_follows mayCall package.name caller.id)) ?_
  rintro phase _ ⟨isAnswered, rfl⟩
  cases phase with
  | answered answer =>
      cases answer with
      | outcome outcome =>
          exact Effect.stays_ofExcept fun _ _ => trivial
      | claimed =>
          have attempted : (station.runInit package caller).attempt.Follows .crossing
              station.thread (.claimed package.name :: token)
              (fun _ => InitOver package.name token) fun _ => InitOpen package.name token := by
            refine Effect.Follows.attempt (Effect.Follows.weaken
              (runInit_follows tasks caller) (fun _ _ => id) ?_)
            intro interruption last broken
            cases interruption with
            | fault fault =>
                exact broken
            | panic payload =>
                exact broken
            | exhausted =>
                exact broken
          have unwinds : ∀ last, InitOpen package.name token last →
              (Process.modify fun machine : Machine =>
                { machine with gate := machine.gate.setCell package.name .untouched }).Follows
                .crossing station.thread last fun _ after => after = token := by
            rintro _ ⟨errand, rfl, runs, awaits⟩
            refine Process.follows_modify fun machine hands fits holding => ?_
            have turn : Turn station.thread machine.gate (hands station.thread)
                (machine.gate.setCell package.name .untouched) token := by
              rw [holding]
              exact .unwind runs awaits
            exact ⟨trivial, token, Reachable.turn fits turn, rfl⟩
          refine Effect.Follows.bind (Effect.Follows.orElseRun attempted
            fun _ last isOpen => unwinds last isOpen) ?_
          intro outcome last isOver
          have settled : (alterGate fun gate =>
                gate.setCell package.name (.settled outcome)).Follows .crossing station.thread last
              (fun _ after => after = .settled package.name :: token)
              fun _ after => after = token := by
            rcases isOver with rfl | rfl
            · exact alterGate_follows fun gate => .settle outcome (.inl rfl)
            · exact alterGate_follows fun gate => .settle outcome (.inr rfl)
          refine settled.bind ?_
          rintro _ _ rfl
          have left : (alterGate fun gate => gate.withdraw station.thread).Follows .crossing
              station.thread (.settled package.name :: token) (fun _ after => after = token)
              fun _ after => after = token :=
            alterGate_follows fun gate => .leave
          refine left.bind ?_
          rintro _ _ rfl
          exact Effect.stays_ofExcept fun _ _ => trivial
  | _ =>
      cases isAnswered

end Station

/-! ## Crowds at the gate -/

section Crowds

variable {interpreter : Interpreter} {Answer : Type}

/-- All tasks of a machine whose interpreter keeps to its station change the gate by turns only. -/
theorem Interpreter.KeepsToStation.tasks_cross (keeps : interpreter.KeepsToStation) (setup : Setup)
    (thread : ThreadId) (depth : Nat) (token : List Errand) (mayCall : MayCall token) :
    (setup.station interpreter thread depth).TasksStay .crossing thread token := by
  refine keeps.tasks_stay setup thread MayCall ?_ ?_ ?_ depth token mayCall
  · exact fun token mayCall => Discipline.crossing_tolerates mayCall.notPassing
  · intro depth tasks token mayCall
    have crosses := (setup.station interpreter thread depth).ensureInitialized_crosses
    rw [setup.thread_station] at crosses
    exact crosses tasks token mayCall
  · intro token mayCall slot value
    exact storeGlobal_stays slot value fun _ _ _ fits _ _ => ⟨trivial, fits⟩

/-- A thread of a machine is blocked in front of a package: it has to wait while it is registered as
waiting for the package. -/
def Crowd.BlockedAt (crowd : Crowd ThreadId Machine Answer) (thread : ThreadId)
    (package : String) : Prop :=
  crowd.Waits thread ∧ crowd.state.gate.waits.get? thread = some package

theorem passing_of_awaited {errands : List Errand} {package : String}
    (awaits : awaited? errands = some package) :
    ∃ phase rest, errands = .passing package phase :: rest := by
  cases errands with
  | nil =>
      cases awaits
  | cons errand rest =>
      cases errand with
      | passing other phase =>
          refine ⟨phase, rest, ?_⟩
          cases phase <;> cases awaits <;> rfl
      | _ =>
          cases awaits

variable {setup : Setup} {depth : Nat} {crowd later : Crowd ThreadId Machine (Option Answer)}

/-- Threads that are started for tasks come to the gate without any errands. -/
theorem Setup.starts_welcoming (keeps : interpreter.KeepsToStation) :
    Crowd.Welcoming .crossing [] (fun _ _ _ => True)
      (setup.Starts interpreter depth : Arrivals ThreadId Machine (Option Answer)) := by
  intro machine hands thread process after fits isIdle starts
  cases starts with
  | @start _ _ front rest task nextThread isSpawned =>
      refine ⟨trivial, [], ?_, ?_⟩
      · rw [← isIdle, Function.update_eq_self]
        exact fits
      · have tolerance : Discipline.crossing.Tolerates thread [] :=
          Discipline.crossing_tolerates (MayCall.notPassing trivial)
        have tasks := keeps.tasks_cross setup thread depth [] trivial
        exact Process.Follows.weaken (Setup.threadOf_stays tolerance.mild tasks task)
          fun _ _ _ => trivial

/-- A crowd whose threads keep to their stations crosses the gate turn by turn. -/
theorem Crowd.crossing_of_keepsTo (keeps : interpreter.KeepsToStation)
    (untouched : crowd.state.gate = {})
    (hosts : ∀ thread process, crowd.process thread = some process →
      Work.KeepsTo (setup.station interpreter thread depth) process) :
    crowd.Orderly .crossing [] fun _ _ _ => True := by
  refine ⟨fun _ => [], ?_, ?_, fun _ _ => rfl⟩
  · change Reachable crowd.state.gate fun _ => []
    rw [untouched]
    exact .start
  · intro thread process holds
    have mayCall : MayCall [] := trivial
    have tasks := keeps.tasks_cross setup thread depth
    have inits := (setup.station interpreter thread depth).ensureInitialized_crosses
    rw [setup.thread_station] at inits
    have stays := hosts thread process holds .crossing thread []
      (Discipline.crossing_tolerates mayCall.notPassing) (tasks [] mayCall)
      (inits tasks [] mayCall)
      fun slot value => storeGlobal_stays slot value fun _ _ _ fits _ _ => ⟨trivial, fits⟩
    exact Process.Follows.weaken stays fun _ _ _ => trivial

/-- A thread that is blocked in front of a package is about to enter the cell of the package, whose
init is running. -/
theorem Crowd.OrderlyWith.blocked {hands : ThreadId → List Errand}
    (orderly : crowd.OrderlyWith .crossing [] (fun _ _ _ => True) hands) {thread : ThreadId}
    {package : String} (blockedAt : crowd.BlockedAt thread package) :
    Blocked crowd.state.gate hands thread package := by
  obtain ⟨waits, registered⟩ := blockedAt
  have reachable : Reachable crowd.state.gate hands := orderly.fits
  rw [reachable.sound.waits thread] at registered
  obtain ⟨phase, rest, passing⟩ := passing_of_awaited registered
  have notReady : crowd.state.gate.ready package phase = false :=
    orderly.waits waits package phase rest passing
  cases phase with
  | enterCell =>
      refine ⟨⟨rest, passing⟩, ?_⟩
      simpa [Gate.ready] using notReady
  | _ =>
      cases notReady

/-- No deadlock among calls that wait for inits.  Let any number of threads work a machine, each of
which comes to the gate only through `ensureInitialized` on its own behalf, and let init units do
the same on the thread that carries them out.  However the threads interleave, there is never a
non-empty set of threads each of which is blocked in front of a package whose init is run by a
thread of the set. -/
theorem no_deadlock_among_inits (setup : Setup) (depth : Nat) (keeps : interpreter.KeepsToStation)
    (untouched : crowd.state.gate = {})
    (hosts : ∀ thread process, crowd.process thread = some process →
      Work.KeepsTo (setup.station interpreter thread depth) process)
    (leads : crowd.Leads (setup.Starts interpreter depth) later) :
    ¬ ∃ threads : Set ThreadId, threads.Nonempty ∧
      ∀ thread ∈ threads, ∃ package, later.BlockedAt thread package ∧
        ∃ runner ∈ threads, later.state.gate.runner? package = some runner := by
  rintro ⟨threads, someThread, deadlocked⟩
  have orderlyBefore := Crowd.crossing_of_keepsTo keeps untouched hosts
  obtain ⟨hands, orderly⟩ := orderlyBefore.leads (Setup.starts_welcoming keeps) leads
  have reachable : Reachable later.state.gate hands := orderly.fits
  refine reachable.not_deadlocked someThread fun thread member => ?_
  obtain ⟨package, blockedAt, runner, runnerMember, runs⟩ := deadlocked thread member
  exact ⟨package, orderly.blocked blockedAt, runner, runnerMember,
    (reachable.sound.running runner package).mpr runs⟩

/-- What a thread does that makes sure that a package is initialized, below a root of its own. -/
def Station.comingTo (station : Station) (package : Package) :
    Work (Option (Except Interruption Unit)) :=
  (openRoot Machine.ownArena Machine.ownProperties >>= station.ensureInitialized package).run.bind
    fun outcome => .done (some outcome)

theorem Station.comingTo_keepsTo (station : Station) (package : Package) :
    Work.KeepsTo station (station.comingTo package) := by
  intro Thread Token _ discipline thread token tolerance _ inits _
  have opened : (openRoot Machine.ownArena Machine.ownProperties).Stays discipline thread token
      fun _ => True :=
    (registerContext_stays tolerance.mild _ _).bind fun _ _ => Effect.stays_pure trivial
  exact (opened.bind fun root _ => inits package root).run.bind fun _ _ =>
    Process.stays_done trivial

/-- A package whose init unit calls a function of another package. -/
def callingInit (package other : String) : Package × BodyKey × List Script.Instruction :=
  let unit (name : String) (kind : UnitKind) : Callable :=
    ⟨package, name, kind, .empty, .empty, ⟨defaultWorkerName, 0, .zero⟩, []⟩
  (((Package.ofName package).setInit (unit initUnitName .init)).addFunction (unit "run" .function),
    ⟨package, initUnitName, 0⟩, [.call other "run" [] []])

/-- Two packages whose init units call each other. -/
def mutualInits : List (Package × BodyKey × List Script.Instruction) :=
  [callingInit "left" "right", callingInit "right" "left"]

/-- The machine of these packages, which starts a thread for each task. -/
def mutualSetup : Setup :=
  ⟨.ofPackages (mutualInits.map Prod.fst) .zero, .ownThreads "worker" none none, default⟩

def mutualScripts : Interpreter :=
  Script.interpreter (.ofList (mutualInits.map Prod.snd))

def mutualCallers : Crowd ThreadId Machine (Option (Except Interruption Unit)) :=
  ⟨.start mutualSetup.program .empty, fun thread => mutualInits[thread]?.map fun (package, _) =>
    (mutualSetup.station mutualScripts thread 9).comingTo package⟩

instance (crowd : Crowd ThreadId Machine Answer) (thread : ThreadId) (package : String) :
    Decidable (crowd.BlockedAt thread package) :=
  inferInstanceAs (Decidable (_ ∧ _))

/-- Two threads come at the same time to packages whose init units call each other.  Thread 1 has
taken over the init of its package when thread 0, in the init of the other package, calls into it
and is blocked; and thread 1 has come back to the package of thread 0 and is registered as waiting
for it, but not blocked. -/
theorem no_deadlock_among_mutual_inits :
    ∃ later, mutualCallers.Leads (mutualSetup.Starts mutualScripts 9) later ∧
      later.BlockedAt 0 "right" ∧ later.state.gate.runner? "right" = some 1 ∧
      later.state.gate.waits.get? 1 = some "left" ∧ later.state.gate.runner? "left" = some 0 ∧
      ¬ ∃ threads : Set ThreadId, threads.Nonempty ∧
        ∀ thread ∈ threads, ∃ package, later.BlockedAt thread package ∧
          ∃ runner ∈ threads, later.state.gate.runner? package = some runner := by
  let later := mutualCallers.goOnInTurn [(1, 9), (0, 100), (1, 18)]
  have leads : mutualCallers.Leads (mutualSetup.Starts mutualScripts 9) later :=
    mutualCallers.leads_goOnInTurn _
  have blocked : later.BlockedAt 0 "right" := by decide +kernel
  have runs : later.state.gate.runner? "right" = some 1 ∧
      later.state.gate.waits.get? 1 = some "left" ∧ later.state.gate.runner? "left" = some 0 := by
    decide +kernel
  refine ⟨later, leads, blocked, runs.1, runs.2.1, runs.2.2, ?_⟩
  refine no_deadlock_among_inits mutualSetup 9 (Script.interpreter_keepsToStation _) rfl ?_ leads
  intro thread process holds
  obtain ⟨package, _, rfl⟩ := Option.map_eq_some_iff.mp holds
  exact Station.comingTo_keepsTo _ package.1

end Crowds

end WorkerMachine
