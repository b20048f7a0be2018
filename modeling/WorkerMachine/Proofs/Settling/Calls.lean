import WorkerMachine.Proofs.Settling.Scheduling
/-!
# Calls and the books

A call is opened, a task is made for every worker, and the one of the first worker is kept for the path
of the caller.  Whoever has the handle of the call has this task and the call in hand.  Joining the
call closes its account, and what the join answers is told by the account alone.
-/

namespace WorkerMachine

open Settling

variable {thread : ThreadId} {token rest : Settling.Hand} {task : Task} {docket : Docket}
  {response : ResponseId} {station : Station} {upset : Interruption → Settling.Hand → Prop}

/-- A call that is over stays in hand, or is forgotten as its caller runs again. -/
theorem resumeParent_leaves (keep : Bool) (parent : ContextId) {front : Settling.Hand} :
    (resumeParent parent).Follows .settling thread
      (front ++ .call response docket closed :: rest)
      fun _ last => last = front ++ leftOf keep response docket closed rest := by
  cases keep with
  | true => exact Process.Follows.weaken (resumeParent_settles parent) fun _ _ reached => reached.1
  | false => exact resumeParent_forgets parent

/-! ## Making tasks -/

/-- The task of a worker is made below the caller, or its registers cannot be seeded. -/
theorem prepareTask_settles {worker : Worker} {inCaller : Bool}
    (planned : docket.made.map Task.part ++ [(worker, inCaller)] <+: docket.plan) :
    (prepareTask docket.unit worker docket.parent docket.source docket.arguments response
      inCaller).Follows .settling thread (.call response docket none :: rest)
      (fun task last => docket.Makes response task ∧ task.part = (worker, inCaller) ∧
        last = .task task .ready :: .call response (docket.make task) none :: rest)
      (fun interruption last => (∃ overrun, Marshalling.seed worker.locals docket.unit.params
          docket.source docket.arguments = .error overrun ∧ interruption = overrun.interruption) ∧
        last = .call response docket none :: rest) := by
  cases seeded : Marshalling.seed worker.locals docket.unit.params docket.source docket.arguments with
  | error overrun =>
    unfold prepareTask
    rw [seeded]
    exact ⟨⟨overrun, rfl, rfl⟩, rfl⟩
  | ok locals =>
    unfold prepareTask
    simp only [seeded, Effect.ofAccess, pure_bind]
    apply Effect.Follows.bind (registerTask_settles _ seeded planned)
    rintro id _ ⟨task, rfl, rfl⟩
    apply Effect.Follows.bind (tally_settles _)
    rintro _ _ rfl
    apply Effect.Follows.orElseRun_of_never
    let task := docket.unit.task worker docket.parent response inCaller locals id
    have moved : (moveContext docket.parent.arena id .runnable).Follows .settling thread
        (.task task .created :: .call response (docket.make task) none :: rest)
        (fun answer last => answer = .ok .created ∧
          last = .task task .ready :: .call response (docket.make task) none :: rest)
        fun _ _ => False :=
      moveTask_settles
    apply moved.bind
    rintro _ _ ⟨rfl, rfl⟩
    exact ⟨⟨rfl, seeded⟩, rfl, rfl⟩

namespace Station

/-- Why a unit cannot be dispatched. -/
inductive Hinders (station : Station) (unit : Callable) (parent : Context) (source : RegisterFile)
    (arguments : List Nat) (waits : Bool) (token : Settling.Hand) : Interruption → Prop
  | arity {fault : Fault} :
      unit.checkArity arguments.length = .error fault →
      Hinders station unit parent source arguments waits token (.fault fault)
  /-- The parent is in a state in which it cannot begin to wait. -/
  | parent {fault : Fault} :
      waits = true → ¬KnowsActive parent.place token →
      Hinders station unit parent source arguments waits token (.fault fault)
  | seeding {worker : Worker} {overrun : Overrun} :
      worker ∈ unit.workers →
      Marshalling.seed worker.locals unit.params source arguments = .error overrun →
      Hinders station unit parent source arguments waits token overrun.interruption
  | refused {context : ContextId} {interruption : Interruption} :
      unit.scheduledWorkers ≠ [] → station.policy.refusal? context = some interruption →
      Hinders station unit parent source arguments waits token interruption

/-- How a call is kept from having all its tasks made. -/
def Breaks (station : Station) (docket : Docket) (interruption : Interruption) : Prop :=
  ∀ token, station.Hinders docket.unit docket.parent docket.source docket.arguments docket.waits token
    interruption

inductive BreaksOff (station : Station) (keep : Bool) (docket : Docket) (response : ResponseId)
    (token : Settling.Hand) : Interruption → Settling.Hand → Prop
  | broken {interruption : Interruption} {hand : Settling.Hand} :
      station.Breaks docket interruption → ∀ made lost,
        made.length < docket.unit.workers.length →
        hand = leftOf keep response { docket with made := made, lost := lost } none token →
        BreaksOff station keep docket response token interruption hand
  | refused {fault : Fault} {hand : Settling.Hand} :
      docket.waits = true → ¬KnowsActive docket.parent.place token →
      hand = leftOf keep response docket none token →
      BreaksOff station keep docket response token (.fault fault) hand

theorem BreaksOff.hinders {interruption : Interruption} {hand : Settling.Hand}
    (breaksOff : station.BreaksOff false docket response token interruption hand) :
    station.Hinders docket.unit docket.parent docket.source docket.arguments docket.waits token
      interruption ∧ hand = token := by
  cases breaksOff with
  | broken breaks made lost _ isHand => exact ⟨breaks token, isHand⟩
  | refused waits unknown isHand => exact ⟨.parent waits unknown, isHand⟩

/-- The scheduler accepts tasks, unless there are no workers to be scheduled. -/
def Accepts (station : Station) (workers : List Worker) : Prop :=
  workers ≠ [] → ∀ context, station.policy.refusal? context = none

/-- Make a task for every worker, hand all but the one of the first worker to the scheduler, and keep
that one with the handle. -/
def handOut (station : Station) (docket : Docket) (response : ResponseId) : Effect Invocation :=
  Effect.orElseRun (do
      station.scheduleWorkers docket.unit docket.parent docket.source docket.arguments response
        docket.unit.scheduledWorkers
      let task ← prepareTask docket.unit docket.unit.callerWorker docket.parent docket.source
        docket.arguments response true
      return ⟨docket.unit, docket.parent.id, response, some task⟩)
    (resumeParent docket.parent.id)

/-- What dispatching a unit comes to once the response has been opened. -/
def makeTasks (station : Station) (docket : Docket) (response : ResponseId) :
    Effect Invocation := do
  if docket.waits then
    Effect.ofExcept (← Effect.atomically
      (Machine.inArena docket.parent.arena fun records => records.beginWait docket.parent.id))
  Effect.orElseRun (do
      station.scheduleWorkers docket.unit docket.parent docket.source docket.arguments response
        docket.unit.scheduledWorkers
      let task ← prepareTask docket.unit docket.unit.callerWorker docket.parent docket.source
        docket.arguments response true
      return ⟨docket.unit, docket.parent.id, response, some task⟩)
    (resumeParent docket.parent.id)

theorem dispatch_eq (station : Station) (docket : Docket) :
    station.dispatch docket.unit docket.parent docket.source docket.arguments docket.waits = (do
      Effect.ofExcept (docket.unit.checkArity docket.arguments.length)
      let response ← Effect.atomically
        (Machine.openResponse docket.unit.returns docket.waits docket.unit.workers.length)
      station.makeTasks docket response) :=
  rfl

theorem makeTasks_eq (station : Station) (docket : Docket) (response : ResponseId) :
    station.makeTasks docket response =
      if docket.waits = true then do
        let marked ← Effect.atomically
          (Machine.inArena docket.parent.arena fun records => records.beginWait docket.parent.id)
        Effect.ofExcept marked
        station.handOut docket response
      else station.handOut docket response := by
  unfold makeTasks handOut
  split
  · rfl
  · rfl

theorem proceeds_openResponse (docket : Docket) (machine : Machine) :
    Proceeds machine (machine.openResponse docket.unit.returns docket.waits
      docket.unit.workers.length).2 := by
  constructor
  · exact List.suffix_refl _
  · rw [Machine.size_responses_openResponse]
    exact Nat.le_succ _
  · intro response opened
    left
    rw [Machine.response_openResponse, if_neg (Nat.ne_of_lt opened)]

variable (tasks : station.SettlesTasks)

include tasks

theorem scheduleWorkers_settles {workers : List Worker}
    (members : ∀ worker ∈ workers, worker ∈ docket.unit.scheduledWorkers)
    (planned : docket.made.map Task.part ++ workers.map (·, false) <+: docket.plan) :
    (station.scheduleWorkers docket.unit docket.parent docket.source docket.arguments response
      workers).Follows .settling station.thread (.call response docket none :: rest)
      (fun _ last => station.Accepts workers ∧ ∃ made : List Task,
        made.map Task.part = docket.made.map Task.part ++ workers.map (·, false) ∧
          last = .call response { docket with made := made } none :: rest)
      (fun interruption last => station.Breaks docket interruption ∧ ∃ made lost,
        made.length < docket.unit.workers.length ∧
          last = .call response { docket with made := made, lost := lost } none :: rest) := by
  induction workers generalizing docket with
  | nil => exact ⟨fun never => absurd rfl never, docket.made, (List.append_nil _).symm, rfl⟩
  | cons worker workers inductionHypothesis =>
    unfold scheduleWorkers
    have isScheduled := members worker List.mem_cons_self
    have isNext : docket.made.map Task.part ++ [(worker, false)] <+: docket.plan := by
      apply List.IsPrefix.trans _ planned
      simp
    apply Effect.Follows.bind ((prepareTask_settles isNext).weaken (fun _ _ => id) _)
    · rintro task _ ⟨makes, isPart, rfl⟩
      apply Effect.Follows.bind (tally_settles _)
      rintro _ _ rfl
      have sameParts : (docket.make task).made.map Task.part =
          docket.made.map Task.part ++ [(worker, false)] := by
        simp [Docket.make, isPart]
      have incomplete : (docket.make task).made.map Task.part ≠ docket.plan := by
        -- The last task of all is one for the path of the caller.
        intro complete
        rw [sameParts] at complete
        have last := congrArg List.getLast? complete
        simp [Docket.plan] at last
      have fewer : (docket.make task).made.length < docket.unit.workers.length := by
        rw [← sameParts] at isNext
        exact (docket.make task).length_lt_of_incomplete isNext incomplete
      apply Effect.Follows.bind
        ((schedule_settles tasks makes.response_eq fun whole => incomplete whole.1).weaken
          (fun _ _ => id) _)
      · rintro _ _ ⟨accepted, rfl⟩
        have goesOn := @inductionHypothesis (docket.make task)
          (fun other member => members other (List.mem_cons_of_mem _ member))
          (by rw [sameParts]; simpa [Docket.plan, Docket.make] using planned)
        apply goesOn.weaken
        · rintro _ _ ⟨_, made, parts, rfl⟩
          refine ⟨fun _ => station.policy.refusal?_eq_none accepted, made, ?_, rfl⟩
          rw [parts, sameParts]
          simp
        · rintro interruption _ ⟨breaks, isLast⟩
          exact ⟨breaks, isLast⟩
      · rintro interruption _ ⟨isRefused, lost, rfl⟩
        refine ⟨fun _ => .refused ?_ isRefused, _, lost, fewer, rfl⟩
        exact List.ne_nil_of_mem isScheduled
    · rintro interruption _ ⟨⟨overrun, notSeeded, rfl⟩, rfl⟩
      refine ⟨fun _ => .seeding ?_ notSeeded, docket.made, docket.lost,
        docket.length_lt_of_planned isNext, rfl⟩
      exact List.mem_cons_of_mem _ isScheduled

omit tasks in
theorem openResponse_settles (docket : Docket) (sound : docket.unit.Sound)
    (nothingMade : docket.made = []) :
    (Effect.atomically (Machine.openResponse docket.unit.returns docket.waits
      docket.unit.workers.length)).Follows .settling thread token
      (fun response last => last = .call response docket none :: token) upset := by
  apply Effect.follows_atomically
  intro machine hands fits holding
  obtain ⟨books, agree⟩ := fits
  exact ⟨proceeds_openResponse docket machine, _,
    ⟨_, agree.openCall holding docket sound nothingMade⟩, rfl⟩

/-- A task is made for every worker, and the one of the first worker is kept.  If that breaks off, there
is nothing in hand but the call, and the call may be forgotten. -/
theorem handOut_settles (keep : Bool) (nothingMade : docket.made = [])
    (nothingLost : docket.lost = false) :
    (station.handOut docket response).Follows .settling station.thread
      (.call response docket none :: token)
      (fun invocation last => station.Accepts docket.unit.scheduledWorkers ∧
        ∃ made task, Docket.Whole { docket with made := made } ∧
          (task ∈ made ∧ task.part = (docket.unit.callerWorker, true)) ∧
          invocation = ⟨docket.unit, docket.parent.id, response, some task⟩ ∧
          last = .task task .ready :: .call response { docket with made := made } none :: token)
      (fun interruption last => station.Breaks docket interruption ∧
        ∃ made lost, made.length < docket.unit.workers.length ∧
          last = leftOf keep response { docket with made := made, lost := lost } none token) := by
  refine Effect.Follows.orElseRun (Effect.Follows.bind
    (@scheduleWorkers_settles _ docket response station tasks docket.unit.scheduledWorkers
      (fun _ => id) ?_) ?_) ?_
  · rw [nothingMade]
    exact List.prefix_append _ _
  · rintro _ _ ⟨accepts, scheduled, parts, rfl⟩
    rw [nothingMade] at parts
    have isLast : scheduled.map Task.part ++ [(docket.unit.callerWorker, true)] =
        docket.unit.scheduledWorkers.map (·, false) ++ [(docket.unit.callerWorker, true)] := by
      rw [parts]
      rfl
    refine Effect.Follows.bind ((@prepareTask_settles _ _
      { docket with made := scheduled } response docket.unit.callerWorker true
        (isLast ▸ List.prefix_rfl)).weaken (fun _ _ => id) ?_) ?_
    · rintro interruption _ ⟨⟨overrun, notSeeded, rfl⟩, rfl⟩
      have planned : scheduled.map Task.part ++ [(docket.unit.callerWorker, true)] <+:
          docket.plan := by
        rw [isLast]
        exact List.prefix_rfl
      refine ⟨fun _ => .seeding ?_ notSeeded, scheduled, docket.lost,
        Docket.length_lt_of_planned { docket with made := scheduled } planned, rfl⟩
      exact List.mem_cons_self
    · rintro task _ ⟨makes, isPart, rfl⟩
      refine ⟨accepts, scheduled ++ [task], task, ⟨?_, nothingLost⟩, ⟨?_, isPart⟩, rfl, rfl⟩
      · rw [List.map_append, List.map_cons, List.map_nil, isPart]
        exact isLast
      · exact List.mem_append_right _ (List.mem_singleton_self task)
  · rintro interruption _ ⟨breaks, made, lost, fewer, rfl⟩
    exact Process.Follows.weaken (@resumeParent_leaves _ _ _ _ _ keep docket.parent.id [])
      fun _ _ isLast => ⟨breaks, made, lost, fewer, isLast⟩

/-- Tasks are made once the parent has been marked, if it is to wait. -/
theorem makeTasks_settles (keep : Bool) (nothingMade : docket.made = [])
    (nothingLost : docket.lost = false) :
    (station.makeTasks docket response).Follows .settling station.thread
      (.call response docket none :: token)
      (fun invocation last => station.Accepts docket.unit.scheduledWorkers ∧
        ∃ made task, Docket.Whole { docket with made := made } ∧
          (task ∈ made ∧ task.part = (docket.unit.callerWorker, true)) ∧
          invocation = ⟨docket.unit, docket.parent.id, response, some task⟩ ∧
          last = .task task .ready :: .call response { docket with made := made } none :: token)
      (station.BreaksOff keep docket response token) := by
  have made : (station.handOut docket response).Follows .settling station.thread
      (.call response docket none :: token)
      (fun invocation last => station.Accepts docket.unit.scheduledWorkers ∧
        ∃ made task, Docket.Whole { docket with made := made } ∧
          (task ∈ made ∧ task.part = (docket.unit.callerWorker, true)) ∧
          invocation = ⟨docket.unit, docket.parent.id, response, some task⟩ ∧
          last = .task task .ready :: .call response { docket with made := made } none :: token)
      (station.BreaksOff keep docket response token) := by
    apply (handOut_settles tasks keep nothingMade nothingLost).weaken fun _ _ reached => reached
    rintro interruption last ⟨breaks, made, lost, fewer, isLast⟩
    exact .broken breaks made lost fewer isLast
  rw [makeTasks_eq]
  split
  · next waits =>
    apply Effect.Follows.bind (beginWait_settles keep docket.parent)
    rintro _ _ (⟨rfl, rfl⟩ | ⟨fault, rfl, unknown, isLast⟩)
    · exact made
    · exact .refused waits unknown isLast
  · exact made

/-- Dispatching a unit opens its response and makes a task for every worker.  If that breaks off,
there is nothing in hand but what was there before. -/
theorem dispatch_settles {unit : Callable} (sound : unit.Sound) (parent : Context)
    (source : RegisterFile) (arguments : List Nat) (waits : Bool) :
    (station.dispatch unit parent source arguments waits).Follows .settling station.thread token
      (fun invocation last => ∃ made task response,
        Docket.Whole ⟨unit, parent, source, arguments, waits, made, false⟩ ∧
        (task ∈ made ∧ task.part = (unit.callerWorker, true)) ∧
        invocation = ⟨unit, parent.id, response, some task⟩ ∧
        last = .task task .ready ::
          .call response ⟨unit, parent, source, arguments, waits, made, false⟩ none :: token)
      (fun interruption last =>
        station.Hinders unit parent source arguments waits token interruption ∧ last = token) := by
  let docket : Docket := ⟨unit, parent, source, arguments, waits, [], false⟩
  rw [station.dispatch_eq docket]
  have checked : (Effect.ofExcept (unit.checkArity arguments.length)).Follows .settling
      station.thread token (fun _ last => last = token)
      (fun interruption last =>
        station.Hinders unit parent source arguments waits token interruption ∧ last = token) :=
    Effect.follows_ofExcept (fun _ _ => rfl) fun fault isFault => ⟨.arity isFault, rfl⟩
  apply checked.bind
  intro _ _ isToken
  rw [isToken]
  apply Effect.Follows.bind (openResponse_settles docket sound rfl)
  rintro response _ rfl
  apply (makeTasks_settles tasks false rfl rfl).weaken
  · rintro invocation _ ⟨_, made, task, reached⟩
    exact ⟨made, task, response, reached⟩
  · intro interruption last breaksOff
    exact breaksOff.hinders

end Station

end WorkerMachine
