import WorkerMachine.Proofs.Registers.Boxing
import WorkerMachine.Proofs.Settling.Books
/-!
# The order in which workers finish

The tasks of a call finish one after the other: the worker of a task ends, or the task is dropped before
its worker has begun.  What a call comes to is told by the order in which this happens and by how each
worker ends that is given its registers; so two calls whose workers are given the same registers, end
alike and finish in the same order come to the same.
-/

namespace WorkerMachine

inductive Finish where
  | ended (worker : Worker)
  /-- The task on this context was dropped before its worker began. -/
  | dropped (context : ContextId)
  deriving DecidableEq, Repr

namespace Machine

def finishOf (machine : Machine) (response : ResponseId) (context : ContextId) : Finish :=
  match (machine.starts response).find? fun task => task.context.id = context with
  | some task => .ended task.worker
  | none => .dropped context

/-- How the tasks have finished that have contributed to a response, the first one in front. -/
def finishes (machine : Machine) (response : ResponseId) : List Finish :=
  (machine.response response).contributors.reverse.map (machine.finishOf response)

/-- Every worker that has ended for a response has ended as it does when it is given such registers:
with this outcome, and with these result registers. -/
def Conducts (machine : Machine) (response : ResponseId)
    (conduct : Worker → RegisterFile → WorkerOutcome × RegisterFile) : Prop :=
  ∀ ending ∈ machine.endings response,
    (judge ending.after ending.outcome, ending.after.results) =
      conduct ending.task.worker ending.task.context.locals

variable {machine : Machine} {response : ResponseId} {task : Task}

theorem mem_starts :
    task ∈ machine.starts response ↔ .started task ∈ machine.history ∧ task.response = response := by
  unfold starts
  rw [List.mem_reverse, List.mem_filterMap]
  constructor
  · rintro ⟨happening, member, isStart⟩
    cases happening with
    | started own =>
      obtain ⟨ofResponse, same⟩ := Option.ite_none_right_eq_some.mp isStart
      cases same
      exact ⟨member, ofResponse⟩
    | ended => cases isStart
    | initCalled => cases isStart
  · rintro ⟨member, ofResponse⟩
    exact ⟨_, member, if_pos ofResponse⟩

theorem mem_endings {ending : Ending} :
    ending ∈ machine.endings response ↔
      .ended ending.task ending.outcome ending.after ∈ machine.history ∧
        ending.task.response = response := by
  unfold endings
  rw [List.mem_reverse, List.mem_filterMap]
  constructor
  · rintro ⟨happening, member, isEnd⟩
    cases happening with
    | started => cases isEnd
    | ended task outcome after =>
      obtain ⟨ofResponse, same⟩ := Option.ite_none_right_eq_some.mp isEnd
      cases same
      exact ⟨member, ofResponse⟩
    | initCalled => cases isEnd
  · rintro ⟨member, ofResponse⟩
    exact ⟨_, member, if_pos ofResponse⟩

end Machine

/-! ## Contributions that tell the same -/

namespace Contribution

structure Alike (first second : Contribution) : Prop where
  outcome : first.outcome = second.outcome
  values : first.values? = second.values?

variable {firsts seconds : List Contribution}

theorem Alike.error {first second : Contribution} (alike : first.Alike second) :
    first.error? = second.error? := by
  unfold error?
  rw [alike.outcome]

theorem Alike.fault {first second : Contribution} (alike : first.Alike second) :
    first.fault? = second.fault? := by
  unfold fault?
  rw [alike.outcome]

theorem findSome?_eq_of_alike {Told : Type} {tell : Contribution → Option Told}
    (same : ∀ {first second : Contribution}, first.Alike second → tell first = tell second)
    (alike : List.Forall₂ Alike firsts seconds) : firsts.findSome? tell = seconds.findSome? tell := by
  induction alike with
  | nil => rfl
  | cons alike _ inductionHypothesis =>
    rw [List.findSome?_cons, List.findSome?_cons, same alike, inductionHypothesis]

theorem verdict_eq_of_alike (alike : List.Forall₂ Alike firsts seconds) :
    verdict firsts = verdict seconds := by
  unfold verdict
  rw [findSome?_eq_of_alike Alike.fault alike, findSome?_eq_of_alike Alike.error alike]

end Contribution

namespace Settling

variable {machine : Machine} {books : Books} {hands : ThreadId → Hand} {docket : Docket}
  {account : Account} {response : ResponseId} {contribution : Contribution}
  {conduct : Worker → RegisterFile → WorkerOutcome × RegisterFile}

/-- What is known of the course of a call: what is kept in the books, and that no tasks have started
for the response but those of the call. -/
structure Course (machine : Machine) (docket : Docket) (account : Account)
    (response : ResponseId) : Prop where
  kept : Kept machine docket account response
  started : ∀ task ∈ machine.starts response, task ∈ docket.made

theorem Agree.course (agree : Agree machine books hands) (opened : response < machine.responses.size) :
    Course machine (books.docket response) (books.account response) response where
  kept := agree.kept response opened
  started := by
    intro task member
    obtain ⟨started, rfl⟩ := Machine.mem_starts.mp member
    exact (agree.started task started).2

namespace Course

variable (course : Course machine docket account response)

include course

theorem exists_task (accepted : contribution ∈ account.accepted) :
    ∃ task ∈ docket.made,
      machine.finishOf response contribution.worker = .ended task.worker ∧
          (∃ ending ∈ machine.endings response, ending.task = task ∧
            contribution.outcome = judge ending.after ending.outcome ∧
            contribution.result = ending.after.results) ∨
        machine.finishOf response contribution.worker = .dropped task.context.id ∧
          contribution.outcome = .faulted task.droppedFault := by
  obtain ⟨task, isMade, isWorker, delivered⟩ := course.kept.delivered contribution accepted
  have ofResponse : task.response = response := (course.kept.made task isMade).1.response_eq
  have isOwn : ∀ own ∈ machine.starts response, own.context.id = contribution.worker → own = task :=
    fun own member same =>
      course.kept.eq_of_id (course.started own member) isMade (same.trans isWorker.symm)
  refine ⟨task, isMade, ?_⟩
  unfold Machine.finishOf
  split
  · next own found =>
    have member := List.mem_of_find?_eq_some found
    have isWorker := List.find?_some found
    have same := isOwn own member (of_decide_eq_true isWorker)
    subst same
    obtain ⟨exit, after, ended, _, isOutcome, isResult⟩ | ⟨_, notStarted⟩ := delivered
    · exact .inl ⟨rfl, ⟨own, exit, after⟩, Machine.mem_endings.mpr ⟨ended, ofResponse⟩, rfl,
        isOutcome, isResult⟩
    · exact absurd (Machine.mem_starts.mp member).1 notStarted
  · next missing =>
    obtain ⟨exit, after, ended, started, _⟩ | ⟨isDropped, _⟩ := delivered
    · have never := List.find?_eq_none.mp missing task (Machine.mem_starts.mpr ⟨started, ofResponse⟩)
      exact absurd (decide_eq_true isWorker) never
    · exact .inr ⟨congrArg Finish.dropped isWorker.symm, isDropped⟩

theorem finishes_eq : machine.finishes response =
    account.accepted.map fun contribution => machine.finishOf response contribution.worker := by
  unfold Machine.finishes
  rw [course.kept.told]
  unfold Account.response
  rw [List.reverse_reverse, List.map_map]
  rfl

end Course

end Settling

end WorkerMachine
