import Mathlib.Data.List.Nodup
import WorkerMachine.Proofs.Process.Passing
/-!
# Processes that take turns

Processes that never have to wait may be run one after the other, each from beginning to end, and
threads that interleave may always go on until all of them have ended.  Where a discipline leaves each
process only one answer and one token to end with, the processes end with these in either case.
-/

namespace WorkerMachine

variable {Thread State Token Answer : Type} [DecidableEq Thread]
  {discipline : Discipline Thread State Token} {thread : Thread} {token : Token} {state : State}
  {hands : Thread → Token}

/-- Under a discipline that excuses nobody, nobody waits. -/
def Discipline.ExcusesNobody (discipline : Discipline Thread State Token) : Prop :=
  ∀ state hands thread, ¬ discipline.excuses state hands thread

namespace Process

/-- Run the processes of threads one after the other, each with nothing beside it. -/
def runInTurn (process : Thread → Process State Answer) : List Thread → State →
    Option (List Answer × State)
  | [], state => some ([], state)
  | thread :: rest, state => do
    let (answer, after) ← (process thread).runAlone state
    let (answers, last) ← runInTurn process rest after
    return (answer :: answers, last)

/-- A process that never has to wait runs alone to its end. -/
theorem Follows.exists_runAlone {process : Process State Answer} {goal : Answer → Token → Prop}
    (follows : process.Follows discipline thread token goal) (nobody : discipline.ExcusesNobody)
    (fits : discipline.fits state hands) (holding : hands thread = token) :
    ∃ answer later exchanged, process.runAlone state = some (answer, later) ∧
      discipline.fits later (Function.update hands thread exchanged) ∧ goal answer exchanged := by
  induction process generalizing token state hands with
  | done answer =>
    refine ⟨answer, state, token, rfl, ?_, follows⟩
    rwa [← holding, Function.update_eq_self]
  | step ready update next inductionHypothesis =>
    obtain ⟨taken, kept⟩ := follows state hands fits holding
    have isReady : ready state = true := by
      by_contra notReady
      exact nobody state hands thread (kept (Bool.eq_false_of_not_eq_true notReady))
    obtain ⟨_, exchanged, fitsAfter, rest⟩ := taken isReady
    obtain ⟨answer, later, last, ran, fitsLater, reached⟩ :=
      inductionHypothesis state rest fitsAfter (Function.update_self ..)
    rw [Function.update_idem] at fitsLater
    exact ⟨answer, later, last, (if_pos isReady).trans ran, fitsLater, reached⟩
  | sleep milliseconds next inductionHypothesis =>
    exact inductionHypothesis follows fits holding

/-- Processes that are run one after the other end with the answers and tokens that the discipline
leaves them. -/
theorem exists_runInTurn {process : Thread → Process State Answer} {answers : Thread → Answer}
    {tokens : Thread → Token} (nobody : discipline.ExcusesNobody) {order : List Thread}
    (distinct : order.Nodup) (fits : discipline.fits state hands)
    (follows : ∀ thread ∈ order, (process thread).Follows discipline thread (hands thread)
      fun answer token => answer = answers thread ∧ token = tokens thread) :
    ∃ later changed, runInTurn process order state = some (order.map answers, later) ∧
      discipline.fits later changed ∧ (∀ thread ∈ order, changed thread = tokens thread) ∧
      ∀ thread, thread ∉ order → changed thread = hands thread := by
  induction order generalizing state hands with
  | nil => exact ⟨state, hands, rfl, fits, fun _ never => (List.not_mem_nil never).elim, fun _ _ => rfl⟩
  | cons thread rest inductionHypothesis =>
    obtain ⟨notAmong, distinctRest⟩ := List.nodup_cons.mp distinct
    obtain ⟨answer, middle, exchanged, ran, fitsMiddle, rfl, rfl⟩ :=
      (follows thread List.mem_cons_self).exists_runAlone nobody fits rfl
    have others : ∀ other, other ∈ rest → other ≠ thread := by
      rintro other member rfl
      exact notAmong member
    obtain ⟨later, changed, ranRest, fitsLater, among, apart⟩ :=
      inductionHypothesis distinctRest fitsMiddle fun other member => by
        rw [Function.update_of_ne (others other member)]
        exact follows other (List.mem_cons_of_mem _ member)
    refine ⟨later, changed, ?_, fitsLater, ?_, ?_⟩
    · rw [runInTurn, ran]
      simp only [Option.bind_eq_bind, Option.bind_some, ranRest, List.map_cons]
      rfl
    · intro other member
      rcases List.mem_cons.mp member with rfl | inRest
      · rw [apart other notAmong, Function.update_self]
      · exact among other inRest
    · intro other notMember
      rw [List.mem_cons, not_or] at notMember
      rw [apart other notMember.2, Function.update_of_ne notMember.1]

end Process

namespace Crowd

variable {arrivals : Arrivals Thread State Answer} {crowd later : Crowd Thread State Answer}
  {idle : Token} {goal : Thread → Answer → Token → Prop}

/-- A thread that has ended makes no more moves. -/
theorem Ended.leads {answer : Answer} (ended : crowd.Ended thread answer)
    (leads : crowd.Leads arrivals later) : later.Ended thread answer := by
  induction leads with
  | refl => exact ended
  | @tail middle last _ moved inductionHypothesis =>
    obtain ⟨mover, moved⟩ := moved
    have isDone : middle.process thread = some (.done answer) := inductionHypothesis
    have different : thread ≠ mover := by
      rintro rfl
      cases moved with
      | step holds _ => cases isDone.symm.trans holds
      | wake holds => cases isDone.symm.trans holds
      | arrive missing _ => cases isDone.symm.trans missing
    cases moved <;> exact (Function.update_of_ne different ..).trans isDone

/-- A thread that has come stays. -/
theorem Leads.isSome_process (leads : crowd.Leads arrivals later)
    (present : (crowd.process thread).isSome) : (later.process thread).isSome := by
  induction leads with
  | refl => exact present
  | @tail middle last _ moved inductionHypothesis =>
    obtain ⟨mover, moved⟩ := moved
    by_cases same : thread = mover
    · subst same
      cases moved <;> exact Option.isSome_iff_exists.mpr ⟨_, Function.update_self ..⟩
    · have untouched : last.process thread = middle.process thread := by
        cases moved <;> exact Function.update_of_ne same ..
      rwa [untouched]

/-- Threads that never have to wait may go on until all of them have ended. -/
theorem Orderly.exists_ended (orderly : crowd.Orderly discipline idle goal)
    (welcoming : Welcoming discipline idle goal arrivals) (nobody : discipline.ExcusesNobody)
    {threads : List Thread} (present : ∀ thread ∈ threads, (crowd.process thread).isSome) :
    ∃ ended, crowd.Leads arrivals ended ∧ ∀ thread ∈ threads, ∃ answer, ended.Ended thread answer := by
  induction threads generalizing crowd with
  | nil => exact ⟨crowd, .refl, fun _ never => (List.not_mem_nil never).elim⟩
  | cons thread rest inductionHypothesis =>
    obtain ⟨process, begun⟩ :=
      Option.isSome_iff_exists.mp (present thread List.mem_cons_self)
    obtain ⟨hands, orderlyWith⟩ := id orderly
    obtain ⟨answer, _, _, ran, _⟩ :=
      (orderlyWith.follows thread process begun).exists_runAlone nobody orderlyWith.fits rfl
    have begunFirst : crowd.process thread = some (process.bind .done) := by
      rwa [Process.bind_done]
    obtain ⟨middle, passes, _⟩ : ∃ middle, Passes arrivals thread .done answer middle process crowd ∧ _ :=
      exists_passes_of_runAlone begunFirst ran
    have isEnded : middle.Ended thread answer := passes.reached
    obtain ⟨ended, leads, all⟩ := inductionHypothesis (orderly.leads welcoming passes.leads)
      fun other member => passes.leads.isSome_process (present other (List.mem_cons_of_mem _ member))
    refine ⟨ended, passes.leads.trans leads, fun other member => ?_⟩
    rcases List.mem_cons.mp member with rfl | inRest
    · exact ⟨answer, isEnded.leads leads⟩
    · exact all other inRest

end Crowd

end WorkerMachine
