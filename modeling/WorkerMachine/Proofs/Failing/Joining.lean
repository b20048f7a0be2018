import WorkerMachine.Proofs.Failing.Endings
import WorkerMachine.Proofs.Settling.Invocations
/-!
# Calls in which one worker fails

A call joins all its workers, and answers with the failure of the only one that fails.  It cannot have
been given up before: a worker of a call that is given up is dropped, and never starts afterwards.
-/

namespace WorkerMachine

open Settling

def WorkerOutcome.failure? : WorkerOutcome → Option Fault
  | .raised error => some (.propagated error)
  | .faulted fault => some fault
  | .returned | .finished => none

/-- All workers of a unit have ended that is called along with the worker of a task, and no other
worker than this one has failed. -/
structure Machine.OnlyFails (machine : Machine) (unit : Callable) (task : Task) : Prop where
  ended : ((machine.endings task.response).map fun ending => ending.task.worker).Perm unit.workers
  others : ∀ ending ∈ machine.endings task.response, ending.task ≠ task →
    (judge ending.after ending.outcome).failure? = none

variable {Answer First : Type} {arrivals : Arrivals ThreadId Machine (Option Answer)}
  {thread : ThreadId} {crowd middle later : Crowd ThreadId Machine (Option Answer)}
  {hands : ThreadId → Settling.Hand}

/-- The threads of a crowd keep the books, and only workers that have started end. -/
structure Crowd.KeepsBooks (arrivals : Arrivals ThreadId Machine (Option Answer))
    (crowd : Crowd ThreadId Machine (Option Answer)) : Prop where
  welcoming : Welcoming .settling [] (fun _ _ _ => True) arrivals
  settling : crowd.Orderly .settling [] fun _ _ _ => True
  endingWelcoming : Welcoming .endingStarted [] (fun _ _ _ => True) arrivals
  endingStarted : crowd.Orderly .endingStarted [] fun _ _ _ => True

namespace Crowd.KeepsBooks

variable (keeps : crowd.KeepsBooks arrivals)

include keeps

theorem leads (leads : crowd.Leads arrivals later) : later.KeepsBooks arrivals where
  welcoming := keeps.welcoming
  settling := keeps.settling.leads keeps.welcoming leads
  endingWelcoming := keeps.endingWelcoming
  endingStarted := keeps.endingStarted.leads keeps.endingWelcoming leads

theorem started_of_ended {task : Task} {outcome : Except Interruption WorkerExit} {left : Context}
    (ended : .ended task outcome left ∈ crowd.state.history) :
    .started task ∈ crowd.state.history := by
  obtain ⟨_, orderly⟩ := keeps.endingStarted
  exact orderly.fits.1 task outcome left ended

/-- A worker that has contributed without having started never starts. -/
theorem never_starts {task : Task} (opened : task.response < crowd.state.responses.size)
    (contributed : task.context.id ∈ (crowd.state.response task.response).contributors)
    (notStarted : .started task ∉ crowd.state.history) (leads : crowd.Leads arrivals later) :
    .started task ∉ later.state.history := by
  induction leads with
  | refl => exact notStarted
  | @tail before after leads moved inductionHypothesis =>
    obtain ⟨mover, moved⟩ := moved
    intro started
    have keepsBefore := keeps.leads leads
    obtain ⟨_, orderly⟩ := (keepsBefore.leads (.single ⟨mover, moved⟩)).settling
    obtain ⟨books, agree⟩ := orderly.fits
    obtain ⟨isOpened, isMade⟩ := agree.started task started
    have kept := agree.kept task.response isOpened
    -- The worker is one of the contributors, so the books tell how it came to contribute.
    have member : task.context.id ∈ (after.state.response task.response).contributors :=
      (advances_of_leads keeps.welcoming keeps.settling (leads.tail ⟨mover, moved⟩)).contributors
        task.response opened contributed
    rw [kept.contributors, List.mem_reverse] at member
    obtain ⟨contribution, isAccepted, isWorker⟩ := List.mem_map.mp member
    obtain ⟨own, ownMade, sameId, delivered⟩ := kept.delivered contribution isAccepted
    obtain rfl := kept.eq_of_id ownMade isMade (sameId.trans isWorker)
    obtain ⟨outcome, left, ended, _⟩ | ⟨_, neverStarted⟩ := delivered
    · obtain ⟨permitted, _⟩ := keepsBefore.endingStarted.move keeps.endingWelcoming moved
      obtain endedBefore | startedBefore := permitted own outcome left ended
      · exact inductionHypothesis (keepsBefore.started_of_ended endedBefore)
      · exact inductionHypothesis startedBefore
    · exact neverStarted started

end Crowd.KeepsBooks

section Dropping

variable {rest : Settling.Hand} {task : Task} {follow : Unit → Work (Option Answer)}

theorem Settling.Agree.contributes_now {machine : Machine} {books : Books} {stage : Stage}
    (agree : Agree machine books hands) (holding : hands thread = .task task stage :: rest)
    (outcome : WorkerOutcome) (result : RegisterFile) :
    task.context.id ∈ ((machine.contribute task.response task.context.id outcome result).2.response
      task.response).contributors := by
  obtain ⟨opened, isMade, pending, _, _⟩ := agree.ofTask holding
  have kept := agree.kept task.response opened
  have accepted : (machine.response task.response).accepts task.context.id = true := by
    rw [kept.told, Account.accepts_response]
    exact decide_eq_true (kept.admits isMade pending)
  rw [Machine.response_contribute, if_pos ⟨rfl, opened⟩, Response.contributors_contribute,
    if_pos accepted]
  exact List.mem_cons_self

theorem Crowd.KeepsBooks.never_starts_of_disposed (keeps : crowd.KeepsBooks arrivals)
    (orderly : crowd.OrderlyApart .settling [] thread hands)
    (holding : hands thread = .task task .ready :: rest)
    (passes : Crowd.Passes arrivals thread follow () middle task.dispose crowd)
    (leads : middle.Leads arrivals later) : .started task ∉ later.state.history := by
  let drop (machine : Machine) : Machine := (machine.contribute task.response task.context.id
    (.faulted task.droppedFault) task.context.results).2
  have contributing : Crowd.Passes arrivals thread follow () middle
      (.step (fun _ => true) drop fun _ => task.context.release) crowd :=
    passes
  obtain ⟨moment, held, before, orderlyThen, sameHand, setsOut⟩ :=
    orderly.exists_setsOut keeps.welcoming contributing
  cases setsOut with
  | step begun isReady passesOn =>
    obtain ⟨books, agree⟩ := orderlyThen.fits
    have holdingThen := sameHand.trans holding
    obtain ⟨opened, _, _, _, hasStarted⟩ := agree.ofTask holdingThen
    have openedThen : task.response < (drop moment.state).responses.size := by
      rw [Machine.size_responses_contribute]
      exact opened
    have contributed : task.context.id ∈
        ((drop moment.state).response task.response).contributors :=
      agree.contributes_now holdingThen _ _
    have notStarted : .started task ∉ (drop moment.state).history := by
      intro started
      cases hasStarted.mpr started
    have dropped := keeps.leads (before.tail ⟨thread, .step begun isReady⟩)
    exact dropped.never_starts openedThen contributed notStarted (passesOn.leads.trans leads)

end Dropping

/-! ## What the only failure comes to -/

section Contributions

variable {contributions : List Contribution} {outcome : WorkerOutcome} {failure : Fault}

theorem Contribution.findSome?_of_only {Told : Type} {tell : Contribution → Option Told}
    {told : Told} (among : ∃ contribution ∈ contributions, tell contribution = some told)
    (only : ∀ contribution ∈ contributions,
      tell contribution = some told ∨ tell contribution = none) :
    contributions.findSome? tell = some told := by
  obtain ⟨contribution, member, tells⟩ := among
  cases found : contributions.findSome? tell with
  | none =>
    have tellsNothing := List.findSome?_eq_none_iff.mp found contribution member
    rw [tells] at tellsNothing
    cases tellsNothing
  | some other =>
    obtain ⟨first, isMember, tellsOther⟩ := List.exists_of_findSome?_eq_some found
    obtain same | nothing := only first isMember
    · exact tellsOther.symm.trans same
    · rw [nothing] at tellsOther
      cases tellsOther

theorem Contribution.silent {contribution : Contribution}
    (noFailure : contribution.outcome.failure? = none) :
    contribution.error? = none ∧ contribution.fault? = none := by
  unfold error? fault?
  cases isOutcome : contribution.outcome with
  | returned => exact ⟨rfl, rfl⟩
  | finished => exact ⟨rfl, rfl⟩
  | raised error =>
    rw [isOutcome] at noFailure
    cases noFailure
  | faulted fault =>
    rw [isOutcome] at noFailure
    cases noFailure

/-- What a call answers if the failures of its workers are one and the same. -/
theorem Account.conclude_of_failure {account : Account} {returns : Layout} {waits : Bool}
    {target : RegisterFile} {indices : List Nat} (fails : outcome.failure? = some failure)
    (among : ∃ contribution ∈ account.accepted, contribution.outcome = outcome)
    (only : ∀ contribution ∈ account.accepted,
      contribution.outcome = outcome ∨ contribution.outcome.failure? = none) :
    (account.response returns waits 1).conclude target indices =
      (.error (.fault failure), target) := by
  obtain ⟨contribution, member, isOutcome⟩ := among
  unfold Response.conclude
  rw [Account.outcome_response]
  unfold Contribution.verdict
  cases outcome with
  | returned => cases fails
  | finished => cases fails
  | raised error =>
    cases fails
    have noFault : account.accepted.findSome? Contribution.fault? = none := by
      apply List.findSome?_eq_none_iff.mpr
      intro other isMember
      obtain same | noFailure := only other isMember
      · simp [Contribution.fault?, same]
      · exact (Contribution.silent noFailure).2
    have isError : account.accepted.findSome? Contribution.error? = some error := by
      apply Contribution.findSome?_of_only
      · exact ⟨contribution, member, by simp [Contribution.error?, isOutcome]⟩
      · intro other isMember
        obtain same | noFailure := only other isMember
        · exact .inl (by simp [Contribution.error?, same])
        · exact .inr (Contribution.silent noFailure).1
    rw [noFault, isError]
  | faulted fault =>
    cases fails
    have isFault : account.accepted.findSome? Contribution.fault? = some failure := by
      apply Contribution.findSome?_of_only
      · exact ⟨contribution, member, by simp [Contribution.fault?, isOutcome]⟩
      · intro other isMember
        obtain same | noFailure := only other isMember
        · exact .inl (by simp [Contribution.fault?, same])
        · exact .inr (Contribution.silent noFailure).2
    rw [isFault]

end Contributions

/-! ## The workers of a call all of which have ended -/

namespace Machine.OnlyFails

variable {machine : Machine} {unit : Callable} {task : Task} {books : Books} {docket : Docket}

theorem nodup_endings (only : machine.OnlyFails unit task) (distinct : unit.workers.Nodup) :
    ((machine.endings task.response).map Ending.task).Nodup := by
  have byWorker : (((machine.endings task.response).map Ending.task).map Task.worker).Nodup := by
    rw [List.map_map]
    exact only.ended.nodup_iff.mpr distinct
  exact byWorker.of_map Task.worker

/-- As many tasks have been made for the call as the unit has workers, and all of them have ended. -/
theorem ended_of_made (only : machine.OnlyFails unit task) (distinct : unit.workers.Nodup)
    (agree : Agree machine books hands)
    (starts : machine.EndsStarted) :
    unit.workers.length ≤ (books.docket task.response).made.length ∧
      ((books.docket task.response).made.length ≤ unit.workers.length →
        ∀ own ∈ (books.docket task.response).made, ∃ ending ∈ machine.endings task.response,
          ending.task = own) := by
  have among : (machine.endings task.response).map Ending.task ⊆
      (books.docket task.response).made := by
    intro own member
    obtain ⟨ending, isEnding, rfl⟩ := List.mem_map.mp member
    obtain ⟨ended, isResponse⟩ := Machine.mem_endings.mp isEnding
    rw [← isResponse]
    exact (agree.started ending.task (starts _ _ _ ended)).2
  have subperm := List.Nodup.subperm (only.nodup_endings distinct) among
  have sameLength : ((machine.endings task.response).map Ending.task).length =
      unit.workers.length := by
    rw [← only.ended.length_eq, List.length_map, List.length_map]
  rw [← sameLength]
  refine ⟨subperm.length_le, fun bounded own isMade => ?_⟩
  have perm := subperm.perm_of_length_le bounded
  exact List.mem_map.mp (perm.mem_iff.mpr isMade)

/-- A call whose account is closed answers with the only failure. -/
theorem conclude_eq (only : machine.OnlyFails docket.unit task) (distinct : docket.unit.workers.Nodup)
    (agree : Agree machine books hands) (starts : machine.EndsStarted) {account : Account}
    (held : .call task.response docket (some account) ∈ hands thread) (whole : docket.Whole)
    {exit : Except Interruption WorkerExit} {after : Context}
    (ended : .ended task exit after ∈ machine.history) {failure : Fault}
    (fails : (judge after exit).failure? = some failure) (target : RegisterFile)
    (indices : List Nat) :
    (account.response docket.unit.returns docket.waits 1).conclude target indices =
      (.error (.fault failure), target) := by
  obtain ⟨opened, isDocket, closed⟩ := agree.held thread _ held
  obtain ⟨isAccount, complete⟩ := closed account rfl
  have kept := agree.kept task.response opened
  have allEnded := (only.ended_of_made distinct agree starts).2
  rw [isDocket] at kept allEnded
  rw [isAccount] at kept
  replace allEnded := allEnded (Nat.le_of_eq whole.length_made)
  have isMade : task ∈ docket.made := by
    rw [← isDocket]
    exact (agree.started task (starts task exit after ended)).2
  -- Every contribution comes from a worker that has ended, and this one has ended only once.
  have told : ∀ contribution ∈ account.accepted, ∃ own ∈ docket.made,
      own.context.id = contribution.worker ∧
        (own = task → contribution.outcome = judge after exit) ∧
        (own ≠ task → contribution.outcome.failure? = none) := by
    intro contribution isAccepted
    obtain ⟨own, ownMade, isWorker, delivered⟩ := kept.delivered contribution isAccepted
    refine ⟨own, ownMade, isWorker, ?_⟩
    have ofResponse := (kept.made own ownMade).1.response_eq
    obtain ⟨exitOwn, left, endedOwn, _, isOutcome, _⟩ | ⟨_, notStarted⟩ := delivered
    · have isEnding : ⟨own, exitOwn, left⟩ ∈ machine.endings task.response :=
        Machine.mem_endings.mpr ⟨endedOwn, ofResponse⟩
      constructor
      · rintro rfl
        have alsoEnding : (⟨own, exit, after⟩ : Ending) ∈ machine.endings own.response :=
          Machine.mem_endings.mpr ⟨ended, rfl⟩
        have same := List.inj_on_of_nodup_map (only.nodup_endings distinct) isEnding alsoEnding rfl
        rw [isOutcome]
        cases same
        rfl
      · intro different
        rw [isOutcome]
        exact only.others _ isEnding different
    · obtain ⟨ending, isEnding, rfl⟩ := allEnded own ownMade
      exact absurd (starts _ _ _ (Machine.mem_endings.mp isEnding).1) notStarted
  apply Account.conclude_of_failure fails
  · have contributes : task.context.id ∈ account.accepted.map Contribution.worker := by
      have subperm := List.Nodup.subperm account.distinct kept.among
      have perm : (account.accepted.map Contribution.worker).Perm
          (docket.made.map fun task => task.context.id) := by
        apply subperm.perm_of_length_le
        rw [List.length_map, List.length_map, complete, whole.length_made]
      exact perm.mem_iff.mpr (List.mem_map_of_mem isMade)
    obtain ⟨contribution, isAccepted, isWorker⟩ := List.mem_map.mp contributes
    obtain ⟨own, ownMade, sameWorker, fromTask, _⟩ := told contribution isAccepted
    exact ⟨contribution, isAccepted,
      fromTask (kept.eq_of_id ownMade isMade (sameWorker.trans isWorker))⟩
  · intro contribution isAccepted
    obtain ⟨own, _, _, fromTask, fromOther⟩ := told contribution isAccepted
    by_cases same : own = task
    · exact .inl (fromTask same)
    · exact .inr (fromOther same)

end Machine.OnlyFails

/-! ## Joining a call with one failure -/

section Calls

variable {station : Station} {request : Request} {target : RegisterFile} {indices : List Nat}
  {response : ResponseId} {token rest : Settling.Hand} {docket : Docket} {task : Task}
  {opened returned : Crowd ThreadId Machine (Option Answer)}

theorem Station.run_goOnInSteps_zero (station : Station) (request : Request) (target : RegisterFile)
    (indices : List Nat) (response : ResponseId) :
    (station.goOnInSteps request 0 target indices response).run =
      (station.makeTasks (request.docket []) response).run.bind fun
        | .ok invocation => (station.join invocation target indices).bind fun answer =>
          .done (.ok answer)
        | .error interruption => .done (.error interruption) := by
  unfold goOnInSteps
  rw [Effect.run_bind]
  congr 1
  funext outcome
  cases outcome with
  | error interruption => rfl
  | ok invocation =>
    dsimp only
    rw [Effect.run_bind]
    rfl

/-- How a join has ended that a thread has passed: the account of the call is closed, or the task that
was kept with the handle never starts. -/
theorem Crowd.KeepsBooks.joined (keeps : crowd.KeepsBooks arrivals) (tasks : station.SettlesTasks)
    (orderly : crowd.OrderlyApart .settling [] station.thread hands) {invocation : Invocation}
    (isResponse : invocation.response = response) (kept : invocation.callerTask = some task)
    (holding : hands station.thread = .task task .ready :: .call response docket none :: rest)
    {follow : Except Interruption Unit × RegisterFile → Work (Option Answer)}
    {answer : Except Interruption Unit × RegisterFile}
    (passes : Crowd.Passes arrivals station.thread follow answer later
      (station.join invocation target indices) crowd) :
    ∃ hands, later.OrderlyApart .settling [] station.thread hands ∧
      ((∃ account, answer =
          (account.response docket.unit.returns docket.waits 1).conclude target indices ∧
          .call response docket (some account) ∈ hands station.thread) ∨
        .call response docket none ∈ hands station.thread ∧
          .started task ∉ later.state.history) := by
  have holdingKept : hands station.thread =
      invocation.kept ++ .call response docket none :: rest := by
    rw [holding, Invocation.kept, kept]
    rfl
  rw [Station.join_eq] at passes
  obtain ⟨suspended, marked, passesMark, passesOn⟩ := passes.exists_between
  obtain ⟨handsMarked, orderlyMarked, isHand, _⟩ :=
    orderly.passes keeps.welcoming holdingKept (suspend_settles invocation.parent) passesMark
  cases suspended with
  | ok _ =>
    obtain ⟨handsAfter, orderlyAfter, account, isAnswer, isHand⟩ :=
      orderlyMarked.passes keeps.welcoming isHand
        (Station.joinMarked_settles tasks true isResponse target indices) passesOn
    refine ⟨handsAfter, orderlyAfter, .inl ⟨account, isAnswer, ?_⟩⟩
    rw [isHand]
    exact List.mem_cons_self
  | error fault =>
    obtain ⟨_, abandoned, passesAbandon, passesDone⟩ := passesOn.exists_between
    rw [Invocation.abandon_eq, kept] at passesAbandon
    obtain ⟨_, resumed, passesResume, passesDrop⟩ := passesAbandon.exists_between
    obtain ⟨handsResumed, orderlyResumed, isHand⟩ := orderlyMarked.passes keeps.welcoming isHand
      (resumeParent_leaves true invocation.parent) passesResume
    have holdingThen : handsResumed station.thread =
        .task task .ready :: .call response docket none :: rest := by
      rw [isHand, Invocation.kept, kept]
      rfl
    have neverStarts := ((keeps.leads passesMark.leads).leads passesResume.leads).never_starts_of_disposed
      orderlyResumed holdingThen passesDrop passesDone.leads
    obtain ⟨handsDropped, orderlyDropped, isHand⟩ :=
      orderlyResumed.passes keeps.welcoming holdingThen dispose_settles passesDrop
    obtain ⟨_, handsAfter, orderlyAfter, sameHand⟩ :=
      orderlyDropped.passes_done keeps.welcoming passesDone
    refine ⟨handsAfter, orderlyAfter, .inr ⟨?_, neverStarts⟩⟩
    rw [sameHand, isHand]
    exact List.mem_cons_self

theorem Machine.OnlyFails.not_fewer {machine : Machine} {unit : Callable}
    (only : machine.OnlyFails unit task) (distinct : unit.workers.Nodup) {books : Books}
    (agree : Agree machine books hands) (starts : machine.EndsStarted)
    (held : .call task.response docket none ∈ hands thread) :
    ¬docket.made.length < unit.workers.length := by
  obtain ⟨_, isDocket, _⟩ := agree.held thread _ held
  have enough := (only.ended_of_made distinct agree starts).1
  rw [isDocket] at enough
  exact Nat.not_lt_of_le enough

/-- A thread makes a call whose response is the one of a task, and goes on with the answer. -/
def Crowd.Calls (arrivals : Arrivals ThreadId Machine (Option Answer)) (station : Station)
    (request : Request) (target : RegisterFile) (indices : List Nat) (task : Task)
    (follow : Except Interruption (Except Interruption Unit × RegisterFile) → Work (Option Answer))
    (answer : Except Interruption (Except Interruption Unit × RegisterFile))
    (crowd returned : Crowd ThreadId Machine (Option Answer)) : Prop :=
  ∃ opened,
    Crowd.Passes arrivals station.thread
      (fun
        | .ok response =>
          (station.goOnInSteps request 0 target indices response).run.bind follow
        | .error interruption => follow (.error interruption))
      (.ok task.response) opened request.openResponse.run crowd ∧
    Crowd.Passes arrivals station.thread follow answer returned
      (station.goOnInSteps request 0 target indices task.response).run opened

/-- A call all of whose workers have ended answers with the failure of the only one that has failed,
and leaves the target of its results alone. -/
theorem Crowd.KeepsBooks.answer_of_onlyFails (keeps : crowd.KeepsBooks arrivals)
    (tasks : station.SettlesTasks) (sound : request.unit.Sound)
    (distinct : request.unit.workers.Nodup)
    {follow : Except Interruption (Except Interruption Unit × RegisterFile) → Work (Option Answer)}
    {answer : Except Interruption (Except Interruption Unit × RegisterFile)}
    (calls : crowd.Calls arrivals station request target indices task follow answer returned)
    (only : returned.state.OnlyFails request.unit task)
    {exit : Except Interruption WorkerExit} {after : Context}
    (ended : .ended task exit after ∈ returned.state.history) {failure : Fault}
    (fails : (judge after exit).failure? = some failure) :
    answer = .ok (.error (.fault failure), target) := by
  obtain ⟨opened, opens, passes⟩ := calls
  obtain ⟨hands, orderly⟩ := keeps.settling
  obtain ⟨_, orderlyEnds⟩ := (keeps.leads (opens.leads.trans passes.leads)).endingStarted
  have starts : returned.state.EndsStarted := orderlyEnds.fits.1
  obtain ⟨handsOpened, orderlyOpened, isHand⟩ := (orderly.apart station.thread none).passes
    keeps.welcoming rfl (Station.openRequested_settles sound) opens
  have holding : handsOpened station.thread =
      .call task.response (request.docket []) none :: hands station.thread := isHand
  rw [Station.run_goOnInSteps_zero] at passes
  obtain ⟨made, dispatched, passesMake, passesOn⟩ := passes.exists_between
  obtain ⟨handsMade, orderlyMade, reached⟩ := orderlyOpened.passes keeps.welcoming holding
    (Station.makeTasks_settles tasks true rfl rfl) passesMake
  cases made with
  | error interruption =>
    exfalso
    have reached : station.BreaksOff true (request.docket []) task.response
        (hands station.thread) interruption (handsMade station.thread) := reached
    obtain ⟨_, handsAfter, orderlyAfter, sameHand⟩ :=
      orderlyMade.passes_done keeps.welcoming passesOn
    obtain ⟨books, agree⟩ := orderlyAfter.fits
    rw [← sameHand] at reached
    cases reached with
    | broken _ made lost fewer isLast =>
      have held : .call task.response { request.docket [] with made := made, lost := lost } none ∈
          handsAfter station.thread := by
        rw [isLast]
        exact List.mem_cons_self
      exact only.not_fewer distinct agree starts held fewer
    | refused _ _ isLast =>
      have held : .call task.response (request.docket []) none ∈ handsAfter station.thread := by
        rw [isLast]
        exact List.mem_cons_self
      exact only.not_fewer distinct agree starts held (Nat.succ_pos _)
  | ok invocation =>
    obtain ⟨_, made, kept, whole, ⟨isMade, _⟩, rfl, holdingMade⟩ := reached
    obtain ⟨answer, rfl, passesJoin⟩ := passesOn.of_view rfl
    have keepsMade := (keeps.leads opens.leads).leads passesMake.leads
    obtain ⟨handsAfter, orderlyAfter, closed⟩ :=
      keepsMade.joined tasks orderlyMade rfl rfl holdingMade passesJoin
    obtain ⟨books, agree⟩ := orderlyAfter.fits
    obtain ⟨account, isAnswer, held⟩ | ⟨held, neverStarts⟩ := closed
    · rw [isAnswer, only.conclude_eq distinct agree starts held whole ended fails]
    · obtain ⟨_, isDocket, _⟩ := agree.held station.thread _ held
      have allEnded := (only.ended_of_made distinct agree starts).2
      rw [isDocket] at allEnded
      obtain ⟨ending, isEnding, rfl⟩ := allEnded (Nat.le_of_eq whole.length_made) kept isMade
      exact absurd (starts _ _ _ (Machine.mem_endings.mp isEnding).1) neverStarts

end Calls

end WorkerMachine
