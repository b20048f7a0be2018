import WorkerMachine.Proofs.Clearance.Tasks
import WorkerMachine.Proofs.Registers.Seeding
/-!
# Calls and clearance

A context that is cleared for the package of a unit calls the unit.  Until the call is over, the
context waits; it makes a task for every worker, and runs the first one itself.  All tasks have ended
when the call is over, however it ends, and the context is cleared as it was before.
-/

namespace WorkerMachine

open Clearance

def Callable.SeedsAll (unit : Callable) (source : RegisterFile) (arguments : List Nat) : Prop :=
  ∀ worker ∈ unit.workers,
    ∃ locals, Marshalling.seed worker.locals unit.params source arguments = .ok locals

theorem Callable.Sound.seedsAll {unit : Callable} (sound : unit.Sound) {locals : BankSizes}
    {source file : RegisterFile} {arguments : List Nat}
    (seeded : Marshalling.seed locals unit.params source arguments = .ok file) :
    unit.SeedsAll source arguments :=
  fun worker member =>
    Marshalling.exists_seed_of_seed sound.params seeded (sound.roomy worker member)

variable {thread : ThreadId} {caller context : ContextId} {activity : Activity} {rest : Hand}
  {call : OpenCall} {parent : Context} {source : RegisterFile} {arguments : List Nat}
  {station : Station}

/-- Either all tasks of a call have been dropped, or nothing hinders further ones from being made. -/
def Clearance.OpenCall.Proceeds (call : OpenCall) (policy : Policy) (source : RegisterFile)
    (arguments : List Nat) : Prop :=
  call.made ⊆ call.dropped ∨ ¬policy.TurnsAway ∧ call.unit.SeedsAll source arguments

/-- A further task is made, or else all that have been made have been dropped. -/
theorem prepareTask_proceeds {worker : Worker} {state : ContextState} {policy : Policy}
    (isOwn : parent.arena = Machine.ownArena) (member : worker ∈ call.unit.workers)
    (sound : call.unit.Sound) (fewer : call.made.length < call.unit.workers.length)
    (proceeds : call.Proceeds policy source arguments) (inCaller : Bool) :
    (prepareTask call.unit worker parent source arguments call.response inCaller).Follows
      .clearing thread ((parent.id, activity.being state (.calling call)) :: rest)
      (fun task last => call.Makes parent.id task ∧ call.unit.SeedsAll source arguments ∧
        last = (task.context.id, task.activity (some thread) .runnable) ::
          (parent.id, activity.being state (.calling (call.make task.context.id))) :: rest)
      (fun _ last => ¬call.unit.SeedsAll source arguments ∧ call.made ⊆ call.dropped ∧
        last = (parent.id, activity.being state (.calling call)) :: rest) := by
  refine (prepareTask_follows_clearing isOwn inCaller fewer).weaken ?_ ?_
  · rintro task _ ⟨makes, ⟨locals, seeded⟩, rfl⟩
    exact ⟨makes, sound.seedsAll seeded, rfl⟩
  · rintro interruption _ ⟨⟨overrun, failed, _⟩, rfl⟩
    have notAll : ¬call.unit.SeedsAll source arguments := by
      intro all
      obtain ⟨locals, seeded⟩ := all worker member
      rw [failed] at seeded
      cases seeded
    rcases proceeds with dropped | ⟨_, all⟩
    · exact ⟨notAll, dropped, rfl⟩
    · exact absurd all notAll

/-! ## The two ends of a call -/

theorem openResponse_follows {unit : Callable} {state : ContextState} (sound : unit.Sound)
    {upset : Interruption → Hand → Prop} :
    (Effect.atomically (Machine.openResponse unit.returns true unit.workers.length)).Follows
      .clearing thread ((caller, activity.being state (.cleared unit.package)) :: rest)
      (fun response last =>
        last = (caller, activity.being state (.calling ⟨unit, response, [], []⟩)) :: rest)
      upset := by
  refine Effect.follows_exchanging fun machine activities _ => ⟨?_, _, ?_, rfl⟩
  · exact Machine.permits_of_quiet rfl fun _ _ => id
  · refine exchanges_head rfl id fun activities known => ?_
    rw [Machine.scene_openResponse]
    refine known.1.openCall (known.2 _ List.mem_cons_self) rfl sound rfl ?_ rfl ?_
    · exact RegisterFile.sizes_ofSizes _
    · simp [Response.opening, Response.ofReturns]

theorem exchanges_close {machine : Machine} {state : ContextState}
    (complete : ∀ activities,
      Known machine ((caller, activity.being state (.calling call)) :: rest) activities →
        call.made ⊆ (machine.response call.response).contributors) :
    Exchanges machine machine thread ((caller, activity.being state (.calling call)) :: rest)
      ((caller, activity.being state (.cleared call.unit.package)) :: rest) :=
  exchanges_head rfl id fun activities known =>
    known.1.closeCall (known.2 _ List.mem_cons_self) rfl (complete activities known)

/-- A call is over when nothing is outstanding any more. -/
theorem waitUntil_complete_follows {state : ContextState} {upset : Interruption → Hand → Prop} :
    (Effect.waitUntil fun machine => (machine.response call.response).outstanding = 0).Follows
      .clearing thread ((caller, activity.being state (.calling call)) :: rest)
      (fun _ last => last = (caller, activity.being state (.cleared call.unit.package)) :: rest)
      upset := by
  refine Effect.follows_waitUntil (fun _ _ _ _ _ => trivial) ?_
  intro machine hands fits holding isOver
  refine ⟨_, exchanges_close (fun _ known => ?_) hands fits holding, rfl⟩
  exact (known.keptCall List.mem_cons_self).2.1.complete (of_decide_eq_true isOver)

/-- A call is over when its caller runs again after all its tasks have been dropped. -/
theorem resumeParent_closes (dropped : call.made ⊆ call.dropped) :
    (resumeParent caller).Follows .clearing thread
      ((caller, activity.being .waiting (.calling call)) :: rest)
      fun _ last =>
        last = (caller, activity.being .running (.cleared call.unit.package)) :: rest := by
  refine Process.follows_exchanging_modify fun machine activities known => ?_
  have resumed := @Known.resumed thread machine _ _ _ _ known rfl
  refine ⟨machine.permits_setArena _, resumed.trans (exchanges_close fun _ later => ?_)⟩
  have member : (caller, activity.being .running (.calling call)) ∈
      (caller, activity.being .running (.calling call)) :: rest :=
    List.mem_cons_self
  exact List.Subset.trans dropped (later.keptCall member).2.1.dropped

namespace Station

variable (tasks : station.RunsTasks) (named : station.policy.NamesThreads)
  (isOwn : parent.arena = Machine.ownArena)

include tasks named isOwn

/-- Workers are handed to the scheduler one after the other.  If that breaks off, all tasks that have
been made have been dropped. -/
theorem scheduleWorkers_follows_clearing {workers : List Worker}
    (members : ∀ worker ∈ workers, worker ∈ call.unit.workers)
    (room : call.made.length + workers.length < call.unit.workers.length)
    (sound : call.unit.Sound) (proceeds : call.Proceeds station.policy source arguments) :
    (station.scheduleWorkers call.unit parent source arguments call.response workers).Follows
      .clearing station.thread ((parent.id, activity.being .waiting (.calling call)) :: rest)
      (fun _ last => ∃ later : OpenCall, later.unit = call.unit ∧ later.response = call.response ∧
        later.made.length = call.made.length + workers.length ∧
          later.Proceeds station.policy source arguments ∧
            last = (parent.id, activity.being .waiting (.calling later)) :: rest)
      (fun interruption last =>
        ((∃ fault, interruption = .fault fault) ∨ ¬call.unit.SeedsAll source arguments) ∧
          ∃ later : OpenCall, later.unit = call.unit ∧ later.made ⊆ later.dropped ∧
            last = (parent.id, activity.being .waiting (.calling later)) :: rest) := by
  induction workers generalizing call with
  | nil =>
      exact ⟨call, rfl, rfl, rfl, proceeds, rfl⟩
  | cons worker workers inductionHypothesis =>
      rw [List.length_cons] at room
      unfold scheduleWorkers
      refine Effect.Follows.bind ((prepareTask_proceeds isOwn (members worker List.mem_cons_self)
        sound (by omega) proceeds false).weaken (fun _ _ => id) ?_) ?_
      · rintro interruption _ ⟨notAll, dropped, rfl⟩
        exact ⟨.inr notAll, call, rfl, dropped, rfl⟩
      rintro task _ ⟨makes, all, rfl⟩
      refine Effect.Follows.bind (tally_follows _) ?_
      rintro _ _ rfl
      have madeBy : (call.make task.context.id).Makes parent.id task :=
        ⟨makes.arena, makes.parent, makes.reportsTo, makes.ofUnit, makes.sized⟩
      refine Effect.Follows.bind
        ((schedule_follows_clearing tasks named madeBy).weaken (fun _ _ => id) ?_) ?_
      · -- A scheduler that turns this task away has turned away all that were made before it.
        rintro interruption _ ⟨turnsAway, isFault, rfl⟩
        refine ⟨.inl isFault, (call.make task.context.id).drop task.context.id, rfl, ?_, rfl⟩
        rcases proceeds with dropped | ⟨accepts, _⟩
        · exact List.cons_subset_cons _ dropped
        · exact absurd turnsAway accepts
      rintro _ _ ⟨accepts, later, isLater, rfl⟩
      have goesOn : later.unit = call.unit ∧ later.response = call.response ∧
          later.made.length = call.made.length + 1 := by
        rcases isLater with rfl | rfl
        · exact ⟨rfl, rfl, rfl⟩
        · exact ⟨rfl, rfl, rfl⟩
      obtain ⟨sameUnit, sameResponse, longer⟩ := goesOn
      rw [← sameUnit, ← sameResponse]
      refine (inductionHypothesis ?_ ?_ ?_ ?_).weaken ?_ ?_
      · rw [sameUnit]
        exact fun other member => members other (List.mem_cons_of_mem _ member)
      · rw [sameUnit, longer]
        omega
      · rw [sameUnit]
        exact sound
      · rw [OpenCall.Proceeds, sameUnit]
        exact .inr ⟨accepts, all⟩
      · rintro _ _ ⟨last, lastUnit, lastResponse, lastLength, lastProceeds, rfl⟩
        refine ⟨last, lastUnit, lastResponse, ?_, lastProceeds, rfl⟩
        rw [lastLength, longer, List.length_cons]
        omega
      · exact fun _ _ => id

/-- Dispatching a unit makes a task for every worker and keeps the one of the first worker.  If that
breaks off, the call is over. -/
theorem dispatch_follows {unit : Callable} (sound : unit.Sound) :
    (station.dispatch unit parent source arguments true).Follows .clearing station.thread
      ((parent.id, activity.being .running (.cleared unit.package)) :: rest)
      (fun invocation last => ∃ call task, call.unit = unit ∧ call.Makes parent.id task ∧
        invocation = ⟨unit, parent.id, call.response, some task⟩ ∧
          last = (task.context.id, task.activity (some station.thread) .runnable) ::
            (parent.id, activity.being .waiting (.calling call)) :: rest)
      (fun interruption last =>
        ((∃ fault, interruption = .fault fault) ∨ ¬unit.SeedsAll source arguments) ∧
          last = (parent.id, activity.being .running (.cleared unit.package)) :: rest) := by
  unfold dispatch
  have checked : (Effect.ofExcept (unit.checkArity arguments.length)).Follows .clearing
      station.thread ((parent.id, activity.being .running (.cleared unit.package)) :: rest)
      (fun _ last => last = (parent.id, activity.being .running (.cleared unit.package)) :: rest)
      (fun interruption last =>
        ((∃ fault, interruption = .fault fault) ∨ ¬unit.SeedsAll source arguments) ∧
          last = (parent.id, activity.being .running (.cleared unit.package)) :: rest) :=
    Effect.follows_ofExcept (fun _ _ => rfl) fun fault _ => ⟨.inl ⟨fault, rfl⟩, rfl⟩
  refine Effect.Follows.bind checked ?_
  rintro _ _ rfl
  refine Effect.Follows.bind (openResponse_follows sound) ?_
  rintro response _ rfl
  rw [if_pos rfl]
  refine Effect.Follows.bind (beginWait_follows isOwn) ?_
  rintro _ _ ⟨rfl, rfl⟩
  refine Effect.Follows.orElseRun (Effect.Follows.bind (@scheduleWorkers_follows_clearing _ _
    ⟨unit, response, [], []⟩ _ _ _ _ tasks named isOwn _ ?_ ?_ sound (.inl (List.Subset.refl _)))
    ?_) ?_
  · exact fun worker member => List.mem_cons_of_mem _ member
  · simp [Callable.workers]
  · rintro _ _ ⟨call, rfl, rfl, length, proceeds, rfl⟩
    have fewer : call.made.length < call.unit.workers.length := by
      rw [length]
      simp [Callable.workers]
    refine Effect.Follows.bind ((prepareTask_proceeds isOwn List.mem_cons_self sound fewer proceeds
      true).weaken (fun _ _ => id) ?_) ?_
    · rintro interruption _ ⟨notAll, dropped, rfl⟩
      exact ⟨.inr notAll, call, rfl, dropped, rfl⟩
    · rintro task _ ⟨makes, _, rfl⟩
      exact ⟨call.make task.context.id, task, rfl, ⟨makes.arena, makes.parent, makes.reportsTo,
        makes.ofUnit, makes.sized⟩, rfl, rfl⟩
  · rintro interruption _ ⟨isFault, call, rfl, dropped, rfl⟩
    refine (resumeParent_closes dropped).weaken ?_
    rintro _ _ rfl
    exact ⟨isFault, rfl⟩

end Station

/-! ## Waiting for the workers -/

theorem Machine.dequeue_spares (newest : Bool) (machine : Machine) :
    (machine.dequeue newest).2.scene = machine.scene ∧
      (machine.dequeue newest).2.history = machine.history := by
  unfold dequeue
  cases newest with
  | true => exact ⟨rfl, rfl⟩
  | false => exact ⟨rfl, rfl⟩

/-- A task that is taken off the queue waited there. -/
theorem Machine.waitingTasks_dequeue (newest : Bool) (machine : Machine) :
    ((machine.dequeue newest).1 = none ∧
        (machine.dequeue newest).2.waitingTasks = machine.waitingTasks) ∨
      ∃ task, (machine.dequeue newest).1 = some task ∧
        machine.waitingTasks.Perm (task :: (machine.dequeue newest).2.waitingTasks) := by
  unfold dequeue waitingTasks
  cases newest with
  | true =>
      rcases List.eq_nil_or_concat machine.queue with empty | ⟨front, task, isQueue⟩
      · exact .inl (by simp [empty])
      · refine .inr ⟨task, by simp [isQueue], ?_⟩
        simp only [isQueue, if_true, List.concat_eq_append, List.dropLast_concat]
        rw [← List.append_assoc]
        exact List.perm_append_singleton task _
  | false =>
      cases isQueue : machine.queue with
      | nil =>
          exact .inl (by simp)
      | cons task rest =>
          exact .inr ⟨task, by simp, List.perm_middle⟩

namespace Station

variable (tasks : station.RunsTasks) {token : Hand}

include tasks

theorem runFirst_follows_clearing {invocation : Invocation} {task : Task}
    (isTask : invocation.callerTask = some task) :
    (station.runFirst invocation).Follows .clearing station.thread
      ((task.context.id, task.activity (some station.thread) .runnable) :: rest)
      (fun _ last => last = rest) fun _ _ => False := by
  unfold runFirst
  rw [isTask]
  refine Effect.Follows.bind (tally_follows _) ?_
  rintro _ _ rfl
  unfold runInCaller
  refine Effect.Follows.bind (Effect.Follows.bind (tasks task rest) ?_) fun _ _ => id
  rintro state _ rfl
  split
  · refine Effect.Follows.bind (Effect.inert_modify_follows fun _ => ⟨rfl, rfl, rfl⟩) ?_
    rintro _ _ rfl
    rfl
  · rfl
  · rfl

/-- The queue is run whatever the thread has in hand. -/
theorem drain_follows (newest : Bool) (bound : Nat) :
    (station.drain newest bound).Follows .clearing station.thread token
      (fun _ last => last = token) fun _ _ => False := by
  induction bound with
  | zero =>
      refine Effect.follows_waitUntil (fun _ _ _ _ _ => trivial) fun machine hands fits holding _ =>
        ⟨token, ?_, rfl⟩
      rw [← holding, Function.update_eq_self]
      exact fits
  | succ bound inductionHypothesis =>
      have taken : (Effect.atomically (Machine.dequeue newest)).Follows .clearing station.thread token
          (fun answer last => (answer = none ∧ last = token) ∨ ∃ task, answer = some task ∧
            last = (task.context.id, task.activity (some station.thread) .runnable) :: token)
          fun _ _ => False := by
        refine Effect.follows_exchanging fun machine activities _ => ?_
        obtain ⟨scene, history⟩ := machine.dequeue_spares newest
        refine ⟨Machine.permits_of_quiet history fun package outcome => ?_, ?_⟩
        · rw [scene]
          exact id
        rcases machine.waitingTasks_dequeue newest with ⟨isNone, sameTasks⟩ | ⟨task, isSome, perm⟩
        · exact ⟨token, Inert.exchanges ⟨scene, history, sameTasks⟩, .inl ⟨isNone, rfl⟩⟩
        · exact ⟨_, exchanges_take scene perm, .inr ⟨task, isSome, rfl⟩⟩
      unfold drain
      refine Effect.Follows.bind taken ?_
      rintro _ _ (⟨rfl, rfl⟩ | ⟨task, rfl, rfl⟩)
      · rfl
      · refine Effect.Follows.bind (runScheduled_follows tasks task) ?_
        rintro _ _ rfl
        exact inductionHypothesis

theorem drainQueue_follows :
    station.drainQueue.Follows .clearing station.thread token (fun _ last => last = token)
      fun _ _ => False := by
  unfold drainQueue
  split
  · exact drain_follows tasks _ _
  · rfl
  · rfl

theorem park_follows_clearing {state : ContextState} :
    (station.park call.response).Follows .clearing station.thread
      ((caller, activity.being state (.calling call)) :: rest)
      (fun _ last => last = (caller, activity.being state (.cleared call.unit.package)) :: rest)
      fun _ _ => False := by
  unfold park
  split
  · have looked : (Effect.read fun machine => (machine.response call.response).outstanding).Follows
        .clearing station.thread ((caller, activity.being state (.calling call)) :: rest)
        (fun _ last => last = (caller, activity.being state (.calling call)) :: rest)
        fun _ _ => False :=
      Effect.follows_read fun _ _ _ _ => rfl
    refine Effect.Follows.bind looked ?_
    rintro outstanding _ rfl
    refine Effect.Follows.bind (Effect.inert_modify_follows fun _ => ⟨rfl, rfl, rfl⟩) ?_
    rintro _ _ rfl
    refine Effect.Follows.bind (drainQueue_follows tasks) ?_
    rintro _ _ rfl
    exact waitUntil_complete_follows
  · exact waitUntil_complete_follows
  · exact waitUntil_complete_follows

end Station

/-! ## Whole calls -/

/-- How a call with registers is interrupted: by a fault, unless some register does not exist. -/
def Callable.Interrupts (unit : Callable) (context : Context) (arguments returns : List Nat)
    (hand : Hand) (interruption : Interruption) (after : Context) (last : Hand) : Prop :=
  ((∃ fault, interruption = .fault fault) ∨ ¬unit.SeedsAll context.locals arguments ∨
    returns ≠ []) ∧ context.LeftAs after ∧ last = hand

/-- Without arguments every worker can be seeded. -/
theorem Callable.seedsAll_nil (unit : Callable) (source : RegisterFile) :
    unit.SeedsAll source [] := by
  intro worker _
  have noPlan : ∀ banks, Marshalling.seedPlan .zero banks [] = [] := by
    intro banks
    cases banks <;> rfl
  exact ⟨.ofSizes worker.locals, by rw [Marshalling.seed, noPlan]; rfl⟩

/-- Nothing goes wrong when nothing is copied. -/
theorem Response.deliverInto_nil (response : Response) (target : RegisterFile) :
    response.deliverInto target [] = (target, .ok ()) := by
  have noPlan : Marshalling.deliveryPlan response.returns.banks response.returns.indices [] = [] := by
    unfold Marshalling.deliveryPlan
    split
    · next isCons => cases isCons
    · rfl
  unfold deliverInto Marshalling.copyReturns
  rw [noPlan]
  rfl

/-- If nothing is delivered, then only a fault can be told of. -/
theorem Station.deliver_endsOnly (invocation : Invocation) (outcome : ResponseOutcome)
    (target : RegisterFile) (indices : List Nat) :
    (deliver invocation outcome target indices).EndsOnly fun answer =>
      ∀ interruption, answer.1 = .error interruption →
        (∃ fault, interruption = .fault fault) ∨ indices ≠ [] := by
  unfold deliver
  split
  · have delivered : (Process.read fun machine : Machine =>
          (machine.response invocation.response).deliverInto target indices).EndsOnly fun answer =>
        indices = [] → answer.2 = .ok () := by
      rintro machine rfl
      dsimp only
      rw [Response.deliverInto_nil]
    refine delivered.bind ?_
    rintro ⟨file, copied⟩ succeeds
    cases copied with
    | ok _ => exact fun _ => nofun
    | error overrun => exact fun _ _ => .inr fun nothing => nomatch succeeds nothing
  · rintro interruption isError
    cases isError
    exact .inl ⟨_, rfl⟩
  · rintro interruption isError
    cases isError
    exact .inl ⟨_, rfl⟩

namespace Station

variable (tasks : station.RunsTasks)

include tasks

theorem settle_follows_clearing {task : Task} :
    (station.settle ⟨call.unit, caller, call.response, some task⟩).Follows .clearing station.thread
      ((task.context.id, task.activity (some station.thread) .runnable) ::
        (caller, activity.being .waiting (.calling call)) :: rest)
      (fun _ last => last = (caller, activity.being .running (.cleared call.unit.package)) :: rest)
      fun _ _ => False := by
  unfold settle
  refine Effect.Follows.bind (runFirst_follows_clearing tasks rfl) ?_
  rintro _ _ rfl
  refine Effect.Follows.bind (park_follows_clearing tasks) ?_
  rintro _ _ rfl
  refine Effect.Follows.bind (Effect.follows_work (resumeParent_follows_clearing rfl)) ?_
  rintro _ _ rfl
  exact Effect.follows_read fun _ _ _ _ => rfl

theorem join_follows_clearing {task : Task} {target : RegisterFile} {indices : List Nat} :
    (station.join ⟨call.unit, caller, call.response, some task⟩ target indices).Follows .clearing
      station.thread
      ((task.context.id, task.activity (some station.thread) .runnable) ::
        (caller, activity.being .waiting (.calling call)) :: rest)
      fun answer last =>
        last = (caller, activity.being .running (.cleared call.unit.package)) :: rest ∧
          ∀ interruption, answer.1 = .error interruption →
            (∃ fault, interruption = .fault fault) ∨ indices ≠ [] := by
  unfold join
  refine Process.Follows.bind (suspend_stays (List.mem_cons_of_mem _ List.mem_cons_self) rfl) ?_
  rintro _ _ ⟨rfl, rfl⟩
  refine Process.Follows.bind (settle_follows_clearing tasks) ?_
  rintro settled _ reached
  cases settled with
  | error interruption =>
      exact reached.elim
  | ok outcome =>
      cases reached
      refine Process.Follows.bind
        (Process.Follows.endsOnly (deliver_stays _ _ _ _) (deliver_endsOnly _ _ _ _)) ?_
      rintro answer _ ⟨answers, rfl, _⟩
      have abandoned : (Invocation.abandon ⟨call.unit, caller, call.response, none⟩).Stays .clearing
          station.thread
          ((caller, activity.being .running (.cleared call.unit.package)) :: rest) fun _ => True :=
        (resumeParent_stays_running List.mem_cons_self rfl).bind fun _ _ => Process.stays_done trivial
      refine Process.Follows.bind abandoned ?_
      rintro _ _ ⟨rfl, _⟩
      exact ⟨rfl, answers⟩

variable (named : station.policy.NamesThreads)

include named

/-- A call with registers ends where it began, and is interrupted only by faults unless some register
does not exist. -/
theorem callRegisters_follows {unit : Callable} (sound : unit.Sound) {context : Context}
    (isOwn : context.arena = Machine.ownArena) (arguments returns : List Nat) :
    (station.callRegisters unit arguments returns).Follows .clearing station.thread context
      ((context.id, activity.being .running (.cleared unit.package)) :: rest)
      (fun _ after last => context.LeftAs after ∧
        last = (context.id, activity.being .running (.cleared unit.package)) :: rest)
      (unit.Interrupts context arguments returns
        ((context.id, activity.being .running (.cleared unit.package)) :: rest)) := by
  have unchanged : context.LeftAs context := ⟨rfl, rfl, rfl, rfl⟩
  have looked : (get : Routine Context).Follows .clearing station.thread context
      ((context.id, activity.being .running (.cleared unit.package)) :: rest)
      (fun before after last => context = before ∧ context = after ∧
        last = (context.id, activity.being .running (.cleared unit.package)) :: rest)
      (unit.Interrupts context arguments returns
        ((context.id, activity.being .running (.cleared unit.package)) :: rest)) :=
    Routine.follows_get ⟨rfl, rfl, rfl⟩
  have dispatched : (liftM (station.dispatch unit context context.locals arguments true) :
      Routine Invocation).Follows .clearing station.thread context
        ((context.id, activity.being .running (.cleared unit.package)) :: rest)
        (fun invocation after last => context = after ∧ ∃ call task, call.unit = unit ∧
          invocation = ⟨unit, context.id, call.response, some task⟩ ∧
            last = (task.context.id, task.activity (some station.thread) .runnable) ::
              (context.id, activity.being .waiting (.calling call)) :: rest)
        (unit.Interrupts context arguments returns
          ((context.id, activity.being .running (.cleared unit.package)) :: rest)) := by
    refine Routine.follows_effect ((dispatch_follows tasks named isOwn sound).weaken ?_ ?_)
    · rintro _ _ ⟨call, task, isUnit, _, reached⟩
      exact ⟨rfl, call, task, isUnit, reached⟩
    · rintro interruption _ ⟨isFault | notAll, isLast⟩
      · exact ⟨.inl isFault, unchanged, isLast⟩
      · exact ⟨.inr (.inl notAll), unchanged, isLast⟩
  unfold callRegisters
  refine looked.bind ?_
  rintro _ _ _ ⟨rfl, rfl, rfl⟩
  refine dispatched.bind ?_
  rintro _ _ _ ⟨rfl, call, task, rfl, rfl, rfl⟩
  have joined : (liftM (station.join ⟨call.unit, context.id, call.response, some task⟩
        context.locals returns : Work _) : Routine _).Follows .clearing station.thread context
      ((task.context.id, task.activity (some station.thread) .runnable) ::
        (context.id, activity.being .waiting (.calling call)) :: rest)
      (fun answer after last => context = after ∧
        last = (context.id, activity.being .running (.cleared call.unit.package)) :: rest ∧
          ∀ interruption, answer.1 = .error interruption →
            (∃ fault, interruption = .fault fault) ∨ returns ≠ [])
      (call.unit.Interrupts context arguments returns
        ((context.id, activity.being .running (.cleared call.unit.package)) :: rest)) :=
    Routine.follows_work (Process.Follows.weaken (join_follows_clearing tasks) fun _ _ reached =>
      ⟨rfl, reached⟩)
  refine joined.bind ?_
  rintro ⟨outcome, locals⟩ _ _ ⟨rfl, rfl, stops⟩
  dsimp only
  split
  · exact ⟨⟨rfl, rfl, rfl, rfl⟩, rfl⟩
  · exact ⟨.inl ⟨_, rfl⟩, ⟨rfl, rfl, rfl, rfl⟩, rfl⟩
  · rcases stops _ rfl with isFault | asked
    · exact ⟨.inl isFault, ⟨rfl, rfl, rfl, rfl⟩, rfl⟩
    · exact ⟨.inr (.inr asked), ⟨rfl, rfl, rfl, rfl⟩, rfl⟩

/-- A call without arguments and results is interrupted only by faults. -/
theorem callUnit_follows {unit : Callable} (sound : unit.Sound) {context : Context}
    (isOwn : context.arena = Machine.ownArena) :
    (station.callUnit unit).Follows .clearing station.thread context
      ((context.id, activity.being .running (.cleared unit.package)) :: rest)
      (fun _ after last => context.LeftAs after ∧
        last = (context.id, activity.being .running (.cleared unit.package)) :: rest)
      fun interruption after last => (∃ fault, interruption = .fault fault) ∧
        context.LeftAs after ∧
          last = (context.id, activity.being .running (.cleared unit.package)) :: rest := by
  refine (callRegisters_follows tasks named sound isOwn [] []).weaken (fun _ _ _ => id) ?_
  rintro interruption after last ⟨isFault | notAll | asked, reached⟩
  · exact ⟨isFault, reached⟩
  · exact absurd (unit.seedsAll_nil _) notAll
  · exact absurd rfl asked

theorem callValues_follows {unit : Callable} (sound : unit.Sound)
    (isOwn : parent.arena = Machine.ownArena) (arguments : List Value) :
    (station.callValues unit parent arguments).Stays .clearing station.thread
      ((parent.id, activity.being .running (.cleared unit.package)) :: rest) fun _ => True := by
  unfold callValues
  refine Effect.Stays.bind (Effect.stays_ofExcept fun _ _ => trivial) fun _ _ => ?_
  refine Effect.Stays.bind (Effect.stays_mk fun _ _ => trivial) fun source _ => ?_
  refine Effect.Follows.bind ((dispatch_follows tasks named isOwn sound).weaken (fun _ _ => id)
    fun _ _ reached => reached.2) ?_
  rintro _ _ ⟨call, task, rfl, _, rfl, rfl⟩
  refine Effect.Follows.bind (Effect.follows_work (join_follows_clearing tasks)) ?_
  rintro ⟨outcome, results⟩ _ ⟨rfl, _⟩
  dsimp only
  refine Effect.Stays.bind (Effect.stays_mk fun _ _ => trivial) fun _ _ => ?_
  exact Effect.stays_ofAccess fun _ _ => trivial

end Station

end WorkerMachine
