import WorkerMachine.Process.Pool
import WorkerMachine.Proofs.Process.Staying
/-!
# What pools and crowds come to

What every member of a pool keeps, and every process that the pool takes in, is kept by the pool,
whichever member moves; and the answers of a pool are those that its members give.  The same is true of
a crowd, however its threads interleave.  A process that is by itself in a pool that takes nobody in
comes to what it comes to alone.
-/

namespace WorkerMachine

variable {State Answer : Type}

/-- Every step of a process keeps a property of the state, and what it answers reaches a goal, if it
answers. -/
def Process.Gives (kept : State → Prop) (process : Process State (Option Answer))
    (goal : Answer → Prop) : Prop :=
  process.Keeps kept fun given => ∀ answer, given = some answer → goal answer

/-- How many moves a pool takes at most for a process that is by itself in it. -/
def Process.movesAlone : Process State Answer → State → Nat
  | done _, _ => 1
  | step _ update next, state => (next state).movesAlone (update state) + 1
  | sleep _ next, state => next.movesAlone state + 2

namespace Pool

variable {kept : State → Prop} {goal : Answer → Prop} {pool after : Pool State Answer}
  {spawn : State → List (Process State (Option Answer)) × State}

/-- The state of a pool has a property that its members keep, and its answers reach a goal. -/
structure Keeps (kept : State → Prop) (goal : Answer → Prop) (pool : Pool State Answer) : Prop where
  state : kept pool.state
  members : ∀ member ∈ pool.members, member.process.Gives kept goal
  answers : ∀ answer ∈ pool.answers, goal answer

/-- The processes that are taken into a pool keep a property of the state and give answers that reach a
goal. -/
def SpawnKeeps (kept : State → Prop) (goal : Answer → Prop)
    (spawn : State → List (Process State (Option Answer)) × State) : Prop :=
  ∀ state, kept state →
    kept (spawn state).2 ∧ ∀ process ∈ (spawn state).1, process.Gives kept goal

/-! ## Moves -/

/-- A move leaves a state with a property and a process that keeps it, or gives an answer that reaches a
goal. -/
def Move.Keeps (kept : State → Prop) (goal : Answer → Prop) : Move State Answer → Prop
  | .ended given => ∀ answer, given = some answer → goal answer
  | .stepped state process => kept state ∧ process.Gives kept goal
  | .asleep _ process => process.Gives kept goal
  | .blocked => True

theorem Member.keeps_move {member : Member State Answer} {state : State}
    (gives : member.process.Gives kept goal) (holds : kept state) (clock : Nat) :
    (Member.move member state clock).Keeps kept goal := by
  obtain ⟨process, wakes⟩ := member
  unfold Member.move
  split
  · exact trivial
  · cases process with
    | done given => exact gives.2
    | step ready update next =>
        dsimp only
        split
        · next isReady =>
          obtain ⟨taken, _⟩ := gives state (fun _ => ()) holds rfl
          obtain ⟨_, _, keptAfter, nextGives⟩ := taken isReady
          exact ⟨keptAfter, nextGives⟩
        · exact trivial
    | sleep milliseconds next => exact gives

/-- Whichever member moves first, the pool keeps what its members keep. -/
theorem Keeps.advanceMembers (keeps : pool.Keeps kept goal)
    {passed rest : List (Member State Answer)}
    (passedGive : ∀ member ∈ passed, member.process.Gives kept goal)
    (restGive : ∀ member ∈ rest, member.process.Gives kept goal)
    (moved : pool.advanceMembers passed rest = some after) : after.Keeps kept goal := by
  induction rest generalizing passed with
  | nil => cases moved
  | cons member rest inductionHypothesis =>
      obtain ⟨gives, others⟩ := List.forall_mem_cons.mp restGive
      have frontGive : ∀ other ∈ passed.reverse, other.process.Gives kept goal :=
        fun other isOther => passedGive other (List.mem_reverse.mp isOther)
      have move := Member.keeps_move gives keeps.state pool.clock
      unfold Pool.advanceMembers at moved
      split at moved
      · next given isEnded =>
        cases moved
        rw [isEnded] at move
        refine ⟨keeps.state, List.forall_mem_append.mpr ⟨frontGive, others⟩, ?_⟩
        refine List.forall_mem_append.mpr ⟨fun answer isAnswer => ?_, keeps.answers⟩
        exact move answer (Option.mem_toList.mp isAnswer)
      · next state process isStepped =>
        cases moved
        rw [isStepped] at move
        exact ⟨move.1, List.forall_mem_append.mpr
          ⟨frontGive, List.forall_mem_cons.mpr ⟨move.2, others⟩⟩, keeps.answers⟩
      · next wakes process isAsleep =>
        cases moved
        rw [isAsleep] at move
        exact ⟨keeps.state, List.forall_mem_append.mpr
          ⟨frontGive, List.forall_mem_cons.mpr ⟨move, others⟩⟩, keeps.answers⟩
      · exact inductionHypothesis (List.forall_mem_cons.mpr ⟨gives, passedGive⟩) others moved

theorem Keeps.advance (keeps : pool.Keeps kept goal) (moved : pool.advance = some after) :
    after.Keeps kept goal := by
  unfold Pool.advance at moved
  split at moved
  · next reached isReached =>
    cases moved
    exact keeps.advanceMembers (fun _ never => absurd never List.not_mem_nil) keeps.members isReached
  · obtain ⟨moment, _, rfl⟩ := Option.map_eq_some_iff.mp moved
    exact ⟨keeps.state, keeps.members, keeps.answers⟩

theorem Keeps.enroll (keeps : pool.Keeps kept goal) (spawns : SpawnKeeps kept goal spawn) :
    (pool.enroll spawn).Keeps kept goal := by
  obtain ⟨keptAfter, give⟩ := spawns pool.state keeps.state
  refine ⟨keptAfter, fun member isMember => ?_, keeps.answers⟩
  rcases List.mem_append.mp isMember with isOld | isNew
  · exact keeps.members member isOld
  · obtain ⟨process, isProcess, rfl⟩ := List.mem_map.mp isNew
    exact give process isProcess

/-- However many moves a pool makes, it keeps what its members keep. -/
theorem Keeps.run (keeps : pool.Keeps kept goal) (spawns : SpawnKeeps kept goal spawn)
    (bound : Nat) : (run spawn bound pool).Keeps kept goal := by
  induction bound generalizing pool with
  | zero => exact keeps
  | succ bound inductionHypothesis =>
      unfold Pool.run
      split
      · next after moved => exact inductionHypothesis ((keeps.advance moved).enroll spawns)
      · exact keeps

theorem keeps_ofProcesses {state : State} {processes : List (Process State (Option Answer))}
    (holds : kept state) (give : ∀ process ∈ processes, process.Gives kept goal) :
    (ofProcesses state processes).Keeps kept goal := by
  refine ⟨holds, fun member isMember => ?_, nofun⟩
  obtain ⟨process, isProcess, rfl⟩ := List.mem_map.mp isMember
  exact give process isProcess

/-! ## A process by itself -/

/-- A pool without members is at rest. -/
theorem run_nil (bound : Nat) (state : State) (clock : Nat) (answers : List Answer) :
    run spawn bound ⟨state, clock, [], answers⟩ = ⟨state, clock, [], answers⟩ := by
  cases bound <;> rfl

theorem run_of_advance (quiet : ∀ state, kept state → spawn state = ([], state)) (bound : Nat)
    (moved : pool.advance = some after) (holds : kept after.state) :
    run spawn (bound + 1) pool = run spawn bound after := by
  have nobody : after.enroll spawn = after := by
    unfold enroll
    rw [quiet after.state holds]
    simp
  rw [run, moved]
  dsimp only
  rw [nobody]

section Alone

variable {state : State} {answer : Answer} {clock wakes : Nat} {answers : List Answer}

theorem advance_done (awake : wakes ≤ clock) :
    advance ⟨state, clock, [⟨.done (some answer), wakes⟩], answers⟩ =
      some ⟨state, clock, [], answer :: answers⟩ := by
  unfold advance advanceMembers Member.move
  rw [if_neg (Nat.not_lt.mpr awake)]
  rfl

theorem advance_step (awake : wakes ≤ clock) {ready : State → Bool} {update : State → State}
    {next : State → Process State (Option Answer)} (isReady : ready state = true) :
    advance ⟨state, clock, [⟨.step ready update next, wakes⟩], answers⟩ =
      some ⟨update state, clock, [⟨next state, wakes⟩], answers⟩ := by
  unfold advance advanceMembers Member.move
  rw [if_neg (Nat.not_lt.mpr awake)]
  simp only [isReady, if_true]
  rfl

theorem advance_sleep (awake : wakes ≤ clock) (milliseconds : Nat)
    (next : Process State (Option Answer)) :
    advance ⟨state, clock, [⟨.sleep milliseconds next, wakes⟩], answers⟩ =
      some ⟨state, clock, [⟨next, clock + milliseconds⟩], answers⟩ := by
  unfold advance advanceMembers Member.move
  rw [if_neg (Nat.not_lt.mpr awake)]
  rfl

/-- Time moves on to the moment when a process wakes that is by itself. -/
theorem advance_asleep (later : clock < wakes) (process : Process State (Option Answer)) :
    advance ⟨state, clock, [⟨process, wakes⟩], answers⟩ =
      some ⟨state, wakes, [⟨process, wakes⟩], answers⟩ := by
  have blocked : advanceMembers (⟨state, clock, [⟨process, wakes⟩], answers⟩ : Pool State Answer) []
      [⟨process, wakes⟩] = none := by
    unfold advanceMembers Member.move
    rw [if_pos later]
    rfl
  unfold advance
  rw [blocked]
  simp [nextWaking, later]

/-- A process that is by itself in a pool that takes nobody in comes to what it comes to alone. -/
theorem exists_run_alone (quiet : ∀ state, kept state → spawn state = ([], state))
    {process : Process State (Option Answer)} {last : State}
    (keeps : process.Keeps kept fun _ => True) (holds : kept state)
    (ran : process.runAlone state = some (some answer, last)) {bound : Nat}
    (enough : process.movesAlone state ≤ bound) (awake : wakes ≤ clock) :
    ∃ moment, run spawn bound ⟨state, clock, [⟨process, wakes⟩], answers⟩ =
      ⟨last, moment, [], answer :: answers⟩ := by
  induction process generalizing state bound clock wakes with
  | done given =>
      cases ran
      obtain ⟨bound, rfl⟩ := Nat.exists_eq_add_of_le' (show 1 ≤ bound from enough)
      rw [run_of_advance quiet bound (advance_done awake) holds]
      exact ⟨clock, run_nil bound last clock _⟩
  | step ready update next inductionHypothesis =>
      obtain ⟨bound, rfl⟩ := Nat.exists_eq_add_of_le' (Nat.le_trans (Nat.le_add_left 1 _) enough)
      unfold Process.runAlone at ran
      split at ran
      · next isReady =>
        obtain ⟨taken, _⟩ := keeps state (fun _ => ()) holds rfl
        obtain ⟨_, _, keptAfter, nextKeeps⟩ := taken isReady
        rw [run_of_advance quiet bound (advance_step awake isReady) keptAfter]
        exact inductionHypothesis state nextKeeps keptAfter ran (Nat.le_of_succ_le_succ enough) awake
      · cases ran
  | sleep milliseconds next inductionHypothesis =>
      obtain ⟨bound, rfl⟩ := Nat.exists_eq_add_of_le' (Nat.le_trans (Nat.le_add_left 2 _) enough)
      have fewer : next.movesAlone state ≤ bound :=
        Nat.le_of_succ_le_succ (Nat.le_of_succ_le_succ enough)
      have nextKeeps : next.Keeps kept fun _ => True := keeps
      rw [run_of_advance quiet (bound + 1) (advance_sleep awake milliseconds next) holds]
      -- A process that has not slept at all goes on at once, and takes one move less.
      by_cases atOnce : milliseconds = 0
      · subst atOnce
        exact inductionHypothesis nextKeeps holds ran (Nat.le_succ_of_le fewer) (Nat.le_refl _)
      · have later : clock < clock + milliseconds :=
          Nat.lt_add_of_pos_right (Nat.pos_of_ne_zero atOnce)
        rw [run_of_advance quiet bound (advance_asleep later next) holds]
        exact inductionHypothesis nextKeeps holds ran fewer (Nat.le_refl _)

end Alone

end Pool

/-- However the threads of a crowd interleave, the crowd keeps what they and those that come in keep, and
the answers of threads reach the goal that they give answers for. -/
theorem Crowd.gives_of_leads {Thread : Type} [DecidableEq Thread] (kept : State → Prop)
    (goal : Answer → Prop) {arrivals : Arrivals Thread State (Option Answer)}
    {opened crowd : Crowd Thread State (Option Answer)}
    (arrive : ∀ state thread process later, kept state → arrivals state thread process later →
      kept later ∧ process.Gives kept goal)
    (holds : kept opened.state)
    (give : ∀ thread process, opened.process thread = some process → process.Gives kept goal)
    (leads : opened.Leads arrivals crowd) :
    kept crowd.state ∧ ∀ thread answer, crowd.Ended thread (some answer) → goal answer := by
  have gives : ∀ (process : Process State (Option Answer)) (thread : Thread),
      process.Gives kept goal → process.Follows (.keeping Thread kept) thread ()
        fun given _ => ∀ answer, given = some answer → goal answer :=
    fun _ thread keeps =>
      Process.Follows.weaken (Process.Keeps.stays keeps thread) fun _ _ reached => reached.2
  have welcoming : Welcoming (.keeping Thread kept) ()
      (fun _ given _ => ∀ answer, given = some answer → goal answer) arrivals := by
    intro state hands thread process later held _ arrives
    obtain ⟨keptAfter, keeps⟩ := arrive state thread process later held arrives
    exact ⟨trivial, (), keptAfter, gives process thread keeps⟩
  have orderly : opened.Orderly (.keeping Thread kept) ()
      fun _ given _ => ∀ answer, given = some answer → goal answer :=
    ⟨fun _ => (), holds, fun thread process runs => gives process thread (give thread process runs),
      fun _ _ => rfl⟩
  obtain ⟨hands, orderlyWith⟩ := orderly.leads welcoming leads
  exact ⟨orderlyWith.fits, fun thread answer ended => orderlyWith.ended ended answer rfl⟩

end WorkerMachine
