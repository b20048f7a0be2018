import WorkerMachine.Proofs.Process.Crowd
/-!
# Disciplines

A discipline says how threads go about a state that they share.  Each thread has a token in hand,
which tells what the thread is about and which only the thread itself exchanges; between any two
steps the state and the tokens fit together, every step makes a change that is permitted, and a
thread waits only for a reason.  Tokens are not part of the state: they are chosen along with the
steps, and they carry what a thread knows whatever the other threads do meanwhile.

If every process of a crowd follows a discipline, then so does the crowd, in every interleaving
(`Crowd.Orderly.leads`).
-/

namespace WorkerMachine

/-- How threads that hold tokens go about a state. -/
structure Discipline (Thread State Token : Type) where
  /-- What is true of the state and of all tokens between any two steps. -/
  fits : State → (Thread → Token) → Prop
  /-- The changes that a step may make. -/
  permits : State → State → Prop
  /-- Why a thread may have to wait. -/
  excuses : State → (Thread → Token) → Thread → Prop
  /-- A step that leaves the state alone is always permitted. -/
  permits_refl : ∀ state, permits state state

variable {Thread State Token Answer First Second : Type} [DecidableEq Thread]
  {discipline : Discipline Thread State Token} {thread : Thread} {token : Token}

namespace Process

/-- A process that is run by a thread with a token in hand follows a discipline, and reaches its
goal whenever it ends. -/
def Follows (discipline : Discipline Thread State Token) (thread : Thread) :
    Process State Answer → Token → (Answer → Token → Prop) → Prop
  | done answer, token, goal => goal answer token
  | step ready update next, token, goal =>
    ∀ state hands, discipline.fits state hands → hands thread = token →
      (ready state = true →
        discipline.permits state (update state) ∧
          ∃ exchanged,
            discipline.fits (update state) (Function.update hands thread exchanged) ∧
              (next state).Follows discipline thread exchanged goal) ∧
        (ready state = false → discipline.excuses state hands thread)
  | sleep _ next, token, goal => next.Follows discipline thread token goal

theorem follows_done {answer : Answer} {goal : Answer → Token → Prop}
    (reached : goal answer token) :
    (done answer : Process State Answer).Follows discipline thread token goal :=
  reached

/-- Whoever reaches a goal reaches every weaker goal. -/
theorem Follows.weaken {process : Process State Answer} {goal weaker : Answer → Token → Prop}
    (follows : process.Follows discipline thread token goal)
    (implied : ∀ answer last, goal answer last → weaker answer last) :
    process.Follows discipline thread token weaker := by
  induction process generalizing token with
  | done answer =>
      exact implied answer token follows
  | step ready update next inductionHypothesis =>
      intro state hands fits holding
      obtain ⟨taken, kept⟩ := follows state hands fits holding
      refine ⟨fun isReady => ?_, kept⟩
      obtain ⟨permitted, exchanged, fitsAfter, rest⟩ := taken isReady
      exact ⟨permitted, exchanged, fitsAfter, inductionHypothesis state rest⟩
  | sleep milliseconds next inductionHypothesis =>
      exact inductionHypothesis follows

/-- Two processes one after the other follow a discipline if the second one does so from wherever
the first one ends. -/
theorem Follows.bind {process : Process State First} {follow : First → Process State Second}
    {between : First → Token → Prop} {goal : Second → Token → Prop}
    (first : process.Follows discipline thread token between)
    (second : ∀ answer middle, between answer middle →
      (follow answer).Follows discipline thread middle goal) :
    (process.bind follow).Follows discipline thread token goal := by
  induction process generalizing token with
  | done answer =>
      exact second answer token first
  | step ready update next inductionHypothesis =>
      intro state hands fits holding
      obtain ⟨taken, kept⟩ := first state hands fits holding
      refine ⟨fun isReady => ?_, kept⟩
      obtain ⟨permitted, exchanged, fitsAfter, rest⟩ := taken isReady
      exact ⟨permitted, exchanged, fitsAfter, inductionHypothesis state rest⟩
  | sleep milliseconds next inductionHypothesis =>
      exact inductionHypothesis first

/-- Whatever the state is like whenever a process goes on, it ends only with answers of some kind. -/
def EndsOnly : Process State Answer → (Answer → Prop) → Prop
  | done answer, kind => kind answer
  | step _ _ next, kind => ∀ state, (next state).EndsOnly kind
  | sleep _ next, kind => next.EndsOnly kind

theorem EndsOnly.weaken {process : Process State Answer} {kind weaker : Answer → Prop}
    (ends : process.EndsOnly kind) (implied : ∀ answer, kind answer → weaker answer) :
    process.EndsOnly weaker := by
  induction process with
  | done answer => exact implied answer ends
  | step ready update next inductionHypothesis =>
      exact fun state => inductionHypothesis state (ends state)
  | sleep milliseconds next inductionHypothesis => exact inductionHypothesis ends

theorem EndsOnly.bind {process : Process State First} {follow : First → Process State Second}
    {between : First → Prop} {kind : Second → Prop} (first : process.EndsOnly between)
    (second : ∀ answer, between answer → (follow answer).EndsOnly kind) :
    (process.bind follow).EndsOnly kind := by
  induction process with
  | done answer => exact second answer first
  | step ready update next inductionHypothesis =>
      exact fun state => inductionHypothesis state (first state)
  | sleep milliseconds next inductionHypothesis => exact inductionHypothesis first

theorem Follows.endsOnly {process : Process State Answer} {goal : Answer → Token → Prop}
    {kind : Answer → Prop} (follows : process.Follows discipline thread token goal)
    (ends : process.EndsOnly kind) :
    process.Follows discipline thread token fun answer last => kind answer ∧ goal answer last := by
  induction process generalizing token with
  | done answer => exact ⟨ends, follows⟩
  | step ready update next inductionHypothesis =>
      intro state hands fits holding
      obtain ⟨taken, kept⟩ := follows state hands fits holding
      refine ⟨fun isReady => ?_, kept⟩
      obtain ⟨permitted, exchanged, fitsAfter, rest⟩ := taken isReady
      exact ⟨permitted, exchanged, fitsAfter, inductionHypothesis state rest (ends state)⟩
  | sleep milliseconds next inductionHypothesis => exact inductionHypothesis follows ends

/-! ## Single steps -/

/-- A look at the state changes nothing. -/
theorem follows_read {view : State → Answer} {goal : Answer → Token → Prop}
    (reached : ∀ state hands, discipline.fits state hands → hands thread = token →
      goal (view state) token) :
    (read view).Follows discipline thread token goal := by
  intro state hands fits holding
  refine ⟨fun _ => ⟨discipline.permits_refl state, token, ?_, ?_⟩, fun never => by cases never⟩
  · rw [← holding, Function.update_eq_self]
    exact fits
  · exact reached state hands fits holding

/-- A change of the state exchanges the token for one that fits the changed state. -/
theorem follows_atomically {operation : State → Answer × State} {goal : Answer → Token → Prop}
    (reached : ∀ state hands, discipline.fits state hands → hands thread = token →
      discipline.permits state (operation state).2 ∧
        ∃ exchanged,
          discipline.fits (operation state).2 (Function.update hands thread exchanged) ∧
            goal (operation state).1 exchanged) :
    (atomically operation).Follows discipline thread token goal :=
  fun state hands fits holding =>
    ⟨fun _ => reached state hands fits holding, fun never => by cases never⟩

theorem follows_modify {update : State → State} {goal : Unit → Token → Prop}
    (reached : ∀ state hands, discipline.fits state hands → hands thread = token →
      discipline.permits state (update state) ∧
        ∃ exchanged,
          discipline.fits (update state) (Function.update hands thread exchanged) ∧
            goal () exchanged) :
    (modify update).Follows discipline thread token goal :=
  fun state hands fits holding =>
    ⟨fun _ => reached state hands fits holding, fun never => by cases never⟩

/-- Waiting needs an excuse as long as it lasts, and brings the awaited property. -/
theorem follows_waitUntil {ready : State → Bool} {goal : Unit → Token → Prop}
    (excused : ∀ state hands, discipline.fits state hands → hands thread = token →
      ready state = false → discipline.excuses state hands thread)
    (reached : ∀ state hands, discipline.fits state hands → hands thread = token →
      ready state = true →
        ∃ exchanged,
          discipline.fits state (Function.update hands thread exchanged) ∧ goal () exchanged) :
    (waitUntil ready).Follows discipline thread token goal :=
  fun state hands fits holding =>
    ⟨fun isReady => ⟨discipline.permits_refl state, reached state hands fits holding isReady⟩,
      excused state hands fits holding⟩

end Process

/-! ## Crowds that follow a discipline -/

namespace Crowd

variable {arrivals : Arrivals Thread State Answer} {idle : Token}
  {goal : Thread → Answer → Token → Prop}

/-- Every thread of a crowd follows a discipline with the token that it has in hand, and threads
that have not come yet hold the idle token. -/
structure OrderlyWith (discipline : Discipline Thread State Token) (idle : Token)
    (goal : Thread → Answer → Token → Prop) (crowd : Crowd Thread State Answer)
    (hands : Thread → Token) : Prop where
  fits : discipline.fits crowd.state hands
  follows : ∀ thread process, crowd.process thread = some process →
    process.Follows discipline thread (hands thread) (goal thread)
  absent : ∀ thread, crowd.process thread = none → hands thread = idle

/-- Every thread of a crowd follows a discipline with some token. -/
def Orderly (discipline : Discipline Thread State Token) (idle : Token)
    (goal : Thread → Answer → Token → Prop) (crowd : Crowd Thread State Answer) : Prop :=
  ∃ hands, crowd.OrderlyWith discipline idle goal hands

/-- Threads that come find the state in a condition from which they follow the discipline. -/
def Welcoming (discipline : Discipline Thread State Token) (idle : Token)
    (goal : Thread → Answer → Token → Prop) (arrivals : Arrivals Thread State Answer) : Prop :=
  ∀ state hands thread process later,
    discipline.fits state hands → hands thread = idle → arrivals state thread process later →
      discipline.permits state later ∧
        ∃ exchanged,
          discipline.fits later (Function.update hands thread exchanged) ∧
            process.Follows discipline thread exchanged (goal thread)

theorem OrderlyWith.after {crowd : Crowd Thread State Answer} {hands : Thread → Token}
    (orderly : crowd.OrderlyWith discipline idle goal hands) {mover : Thread} {later : State}
    {process : Process State Answer} {exchanged : Token}
    (fits : discipline.fits later (Function.update hands mover exchanged))
    (follows : process.Follows discipline mover exchanged (goal mover)) :
    (crowd.after mover later process).OrderlyWith discipline idle goal
      (Function.update hands mover exchanged) where
  fits := fits
  follows := by
    intro thread held holds
    by_cases same : thread = mover
    · subst same
      have isProcess : process = held := by
        simpa [Crowd.after] using holds
      rw [Function.update_self, ← isProcess]
      exact follows
    · rw [Function.update_of_ne same]
      exact orderly.follows thread held (by simpa [Crowd.after, same] using holds)
  absent := by
    intro thread missing
    by_cases same : thread = mover
    · subst same
      simp [Crowd.after] at missing
    · rw [Function.update_of_ne same]
      exact orderly.absent thread (by simpa [Crowd.after, same] using missing)

/-- A move of an orderly crowd is permitted and leaves the crowd orderly, and only the mover exchanges
its token. -/
theorem OrderlyWith.move (welcoming : Welcoming discipline idle goal arrivals)
    {crowd later : Crowd Thread State Answer} {hands : Thread → Token}
    (orderly : crowd.OrderlyWith discipline idle goal hands) {mover : Thread}
    (moved : crowd.Move arrivals mover later) :
    discipline.permits crowd.state later.state ∧
      ∃ exchanged, later.OrderlyWith discipline idle goal (Function.update hands mover exchanged) := by
  cases moved with
  | step holds isReady =>
      have follows := orderly.follows mover _ holds
      obtain ⟨permitted, exchanged, fits, rest⟩ :=
        (follows crowd.state hands orderly.fits rfl).1 isReady
      exact ⟨permitted, exchanged, orderly.after fits rest⟩
  | @wake milliseconds next holds =>
      have follows : next.Follows discipline mover (hands mover) (goal mover) :=
        orderly.follows mover (.sleep milliseconds next) holds
      refine ⟨discipline.permits_refl crowd.state, hands mover, orderly.after ?_ follows⟩
      rw [Function.update_eq_self]
      exact orderly.fits
  | arrive missing arrives =>
      obtain ⟨permitted, exchanged, fits, follows⟩ :=
        welcoming crowd.state hands mover _ _ orderly.fits (orderly.absent mover missing) arrives
      exact ⟨permitted, exchanged, orderly.after fits follows⟩

theorem Orderly.move (welcoming : Welcoming discipline idle goal arrivals)
    {crowd later : Crowd Thread State Answer} (orderly : crowd.Orderly discipline idle goal)
    {mover : Thread} (moved : crowd.Move arrivals mover later) :
    discipline.permits crowd.state later.state ∧ later.Orderly discipline idle goal := by
  obtain ⟨hands, orderlyWith⟩ := orderly
  obtain ⟨permitted, exchanged, orderlyAfter⟩ := orderlyWith.move welcoming moved
  exact ⟨permitted, _, orderlyAfter⟩

/-- Whatever an orderly crowd comes to is orderly. -/
theorem Orderly.leads (welcoming : Welcoming discipline idle goal arrivals)
    {crowd later : Crowd Thread State Answer} (orderly : crowd.Orderly discipline idle goal)
    (leads : crowd.Leads arrivals later) : later.Orderly discipline idle goal := by
  induction leads with
  | refl =>
      exact orderly
  | tail _ moved inductionHypothesis =>
      obtain ⟨mover, moved⟩ := moved
      exact (inductionHypothesis.move welcoming moved).2

theorem OrderlyWith.ended {crowd : Crowd Thread State Answer} {hands : Thread → Token}
    (orderly : crowd.OrderlyWith discipline idle goal hands) {thread : Thread} {answer : Answer}
    (ended : crowd.Ended thread answer) : goal thread answer (hands thread) :=
  orderly.follows thread _ ended

theorem OrderlyWith.waits {crowd : Crowd Thread State Answer} {hands : Thread → Token}
    (orderly : crowd.OrderlyWith discipline idle goal hands) {thread : Thread}
    (waits : crowd.Waits thread) : discipline.excuses crowd.state hands thread := by
  obtain ⟨ready, update, next, holds, notReady⟩ := waits
  exact (orderly.follows thread _ holds crowd.state hands orderly.fits rfl).2 notReady

end Crowd

end WorkerMachine
