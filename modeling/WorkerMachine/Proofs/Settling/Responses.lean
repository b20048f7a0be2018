import WorkerMachine.Proofs.Process.Passing
import WorkerMachine.Proofs.Settling.Handles
import WorkerMachine.Proofs.Settling.Scripts
import WorkerMachine.Proofs.Settling.Threads
/-!
# Responses are settled once per worker

Once an invocation has been handed out, there is a task for every worker of its unit, and each of them
contributes to the response once: as the worker ends, or as the task is dropped instead of being run.
So the response is complete, and was completed once, as soon as all tasks have been run or dropped,
however the handle of the invocation ends.
-/

namespace WorkerMachine

open Settling

variable {machine later before after : Machine} {books : Books} {hands : ThreadId → Settling.Hand}
  {docket : Docket} {response : ResponseId} {task : Task}

/-! ## Tasks of a response -/

def Task.name (task : Task) : ContextId :=
  task.context.id

/-- The context of a task has been released: the task has been run, or it has been dropped. -/
def Machine.IsDone (machine : Machine) (task : Task) : Prop :=
  machine.stateIn? task.context.arena task.context.id = none

/-- An invocation has been handed out, and these are the tasks of its workers. -/
structure Settling.HandedOut (request : Request) (invocation : Invocation) (tasks : List Task) :
    Prop where
  ofWorkers : tasks.map Task.part =
    request.unit.scheduledWorkers.map (·, false) ++ [(request.unit.callerWorker, true)]
  distinct : (tasks.map Task.name).Nodup
  made : ∀ task ∈ tasks, task = request.unit.task task.worker request.parent invocation.response
    task.context.inCaller task.context.locals task.context.id
  kept : ∃ task ∈ tasks, task.part = (request.unit.callerWorker, true) ∧
    invocation = ⟨request.unit, request.parent.id, invocation.response, some task⟩

/-- The tasks contribute to a response once each, and complete it once. -/
structure Settling.SettledBy (machine : Machine) (response : ResponseId) (tasks : List Task) :
    Prop where
  once : (machine.response response).contributors.Nodup
  among : (machine.response response).contributors ⊆ tasks.map Task.name
  contributed : ∀ task ∈ tasks, machine.IsDone task →
    task.name ∈ (machine.response response).contributors
  completions : (machine.response response).completions =
    if (machine.response response).contributors.length = tasks.length then 1 else 0
  settled : (∀ task ∈ tasks, machine.IsDone task) →
    (machine.response response).contributors.Perm (tasks.map Task.name) ∧
      (machine.response response).isComplete = true ∧
        (machine.response response).completions = 1

namespace Settling

theorem Docket.Whole.length_made (whole : docket.Whole) :
    docket.made.length = docket.unit.workers.length := by
  have complete := congrArg List.length whole.1
  rwa [List.length_map, docket.length_plan] at complete

/-- Whatever state the context of a task in hand is in, it has one. -/
theorem Stage.Allows.isSome {stage : Stage} {state : Option ContextState}
    (allows : stage.Allows state) : state ≠ none := by
  rintro rfl
  cases stage with
  | created => cases allows
  | ready => cases allows
  | entered => cases allows <;> contradiction
  | begun => cases allows <;> contradiction
  | finished outcome => cases allows

namespace Agree

variable (agree : Agree machine books hands)

include agree

/-- A task whose context has been released has contributed. -/
theorem contributed_of_isDone (opened : response < machine.responses.size)
    (notLost : (books.docket response).lost = false) (isMade : task ∈ (books.docket response).made)
    (isDone : machine.IsDone task) : task.name ∈ (machine.response response).contributors := by
  rw [(agree.kept response opened).contributors, List.mem_reverse]
  by_contra pending
  -- The task would be found somewhere, and its context in some state.
  have holds : ∃ stage, Item.Holds machine books (.task task stage) := by
    obtain waits | ⟨thread, stage, inHand⟩ :=
      agree.covered response opened notLost task isMade pending
    · exact ⟨.ready, agree.piled _ (List.mem_map_of_mem waits)⟩
    · exact ⟨stage, agree.held thread _ inHand⟩
  obtain ⟨stage, _, _, _, allows, _⟩ := holds
  exact allows.isSome isDone

/-- The tasks of a call settle its response. -/
theorem settles (opened : response < machine.responses.size)
    (whole : (books.docket response).Whole) :
    SettledBy machine response (books.docket response).made := by
  have kept := agree.kept response opened
  have contributors := kept.contributors
  have once : (machine.response response).contributors.Nodup := by
    rw [contributors, List.nodup_reverse]
    exact (books.account response).distinct
  have among : (machine.response response).contributors ⊆
      (books.docket response).made.map Task.name := by
    rw [contributors]
    intro worker member
    exact kept.among (List.mem_reverse.mp member)
  have contributed : ∀ task ∈ (books.docket response).made, machine.IsDone task →
      task.name ∈ (machine.response response).contributors :=
    fun task isMade isDone => agree.contributed_of_isDone opened whole.2 isMade isDone
  have completions : (machine.response response).completions =
      if (machine.response response).contributors.length =
        (books.docket response).made.length then 1 else 0 := by
    rw [contributors, List.length_reverse, List.length_map, whole.length_made, kept.told]
    rfl
  refine ⟨once, among, contributed, completions, fun allDone => ?_⟩
  have perm : (machine.response response).contributors.Perm
      ((books.docket response).made.map Task.name) := by
    apply (List.perm_ext_iff_of_nodup once kept.distinct).mpr
    intro worker
    apply Iff.intro fun member => among member
    intro member
    obtain ⟨task, isMade, rfl⟩ := List.mem_map.mp member
    exact contributed task isMade (allDone task isMade)
  have completed : (machine.response response).completions = 1 := by
    rw [completions, if_pos]
    rw [perm.length_eq, List.length_map]
  have nothing : (machine.response response).outstanding = 0 := by
    have all := perm.length_eq
    rw [contributors, List.length_reverse, List.length_map, List.length_map,
      whole.length_made] at all
    rw [kept.told]
    simp [Account.response, kept.expected, all]
  refine ⟨perm, ?_, completed⟩
  simp [Response.isComplete, nothing, completed]

end Agree

/-! ## Contributions -/

/-- What the tasks of a response do to it from one moment to the next: nothing, or one of them hands in
the contribution that is still missing of it. -/
def Contributes (before after : Machine) (response : ResponseId) (tasks : List Task) : Prop :=
  after.response response = before.response response ∨
    ∃ task ∈ tasks, ∃ outcome result, HandedIn before after task outcome result ∧
      task.name ∉ (before.response response).contributors ∧
      after.response response = ((before.response response).contribute task.name outcome result).1

/-- From one moment to a later one, more happens and nothing is undone. -/
structure Advances (before after : Machine) : Prop where
  history : before.history <:+ after.history
  opened : before.responses.size ≤ after.responses.size
  contributors : ∀ response < before.responses.size,
    (before.response response).contributors ⊆ (after.response response).contributors

theorem Advances.refl (machine : Machine) : Advances machine machine :=
  ⟨List.suffix_refl _, Nat.le_refl _, fun _ _ => List.Subset.refl _⟩

theorem Advances.trans (first : Advances before after) (second : Advances after later) :
    Advances before later where
  history := first.history.trans second.history
  opened := Nat.le_trans first.opened second.opened
  contributors := by
    intro response opened
    have openedAfter := Nat.lt_of_lt_of_le opened first.opened
    exact List.Subset.trans (first.contributors response opened)
      (second.contributors response openedAfter)

end Settling

/-- Values are staged without regard to who has contributed. -/
theorem Response.contributors_stage (response : Response) (result : RegisterFile) :
    (response.stage result).1.contributors = response.contributors := by
  unfold stage
  split
  · rfl
  · dsimp only
    split <;> rfl

theorem Response.contributors_contribute (response : Response) (worker : ContextId)
    (outcome : WorkerOutcome) (result : RegisterFile) :
    (response.contribute worker outcome result).1.contributors =
      if response.accepts worker then worker :: response.contributors
      else response.contributors := by
  have recorded : ((response.enlist worker).record outcome result).1.contributors =
      worker :: response.contributors := by
    cases outcome with
    | returned => exact contributors_stage _ result
    | finished => rfl
    | raised error => rfl
    | faulted fault => rfl
  unfold contribute
  split
  · rw [← recorded]
    split
    · next isRecorded =>
      rw [isRecorded]
      unfold settle
      dsimp only
      split <;> rfl
    · next isRecorded => rw [isRecorded]
  · rfl

namespace Settling

theorem Proceeds.advances (proceeds : Proceeds before after) : Advances before after where
  history := proceeds.history
  opened := proceeds.opened
  contributors := by
    intro response opened
    obtain same | ⟨task, outcome, result, _, _, _, contributed⟩ :=
      proceeds.responses response opened
    · rw [same]
      exact List.Subset.refl _
    · rw [contributed, Response.contributors_contribute]
      split
      · exact List.subset_cons_self _ _
      · exact List.Subset.refl _

/-- Whatever has happened to a response up to some moment, was done by the tasks in the books. -/
theorem Agree.contributes (agree : Agree later books hands) (proceeds : Proceeds before after)
    (advances : Advances after later) (opened : response < before.responses.size) :
    Contributes before after response (books.docket response).made := by
  have openedAfter := Nat.lt_of_lt_of_le opened proceeds.opened
  have kept := agree.kept response (Nat.lt_of_lt_of_le openedAfter advances.opened)
  obtain same | ⟨task, outcome, result, isOfResponse, handedIn, isNew, contributed⟩ :=
    proceeds.responses response opened
  · exact .inl same
  cases accepted : (before.response response).accepts task.context.id with
  | false =>
    left
    rw [contributed, Response.contribute_eq_of_not_accepts _ accepted]
  | true =>
    right
    obtain ran | ⟨isDropped, neverStarted, sameHistory⟩ := handedIn
    · obtain ⟨exit, left, ended, started, told⟩ := ran
      have stillStarted := (proceeds.history.trans advances.history).subset started
      have isMade : task ∈ (books.docket response).made := by
        rw [← isOfResponse]
        exact (agree.started task stillStarted).2
      exact ⟨task, isMade, outcome, result, .inl ⟨exit, left, ended, started, told⟩, isNew,
        contributed⟩
    · have member : task.context.id ∈ (later.response response).contributors := by
        apply advances.contributors response openedAfter
        rw [contributed, Response.contributors_contribute, if_pos accepted]
        exact List.mem_cons_self
      rw [kept.contributors, List.mem_reverse] at member
      obtain ⟨own, isMade, sameName⟩ := List.mem_map.mp (kept.among member)
      have ownResponse := (kept.made own isMade).1.response_eq
      refine ⟨own, isMade, outcome, result, .inr ⟨?_, ?_, sameHistory⟩, ?_, ?_⟩
      · rw [isDropped, Task.droppedFault, Task.droppedFault, sameName]
      · rw [ownResponse, sameName, ← isOfResponse]
        exact neverStarted
      · rw [Task.name, sameName]
        exact isNew
      · rw [Task.name, sameName]
        exact contributed

end Settling

end WorkerMachine
