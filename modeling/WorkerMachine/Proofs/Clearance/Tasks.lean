import WorkerMachine.Proofs.Clearance.Steps
import WorkerMachine.Proofs.Machine.Surroundings
/-!
# Tasks and clearance

A context that calls a unit makes a task for every worker.  A task that has been made is in the hand
of the thread that made it, until it has been run, or has been dropped, or waits for another thread.
-/

namespace WorkerMachine

open Clearance

namespace Clearance

/-- The activity of a context that goes on being for the same, in another state and with another
pursuit. -/
def Activity.being (activity : Activity) (state : ContextState) (pursuit : Pursuit) : Activity :=
  { activity with state := state, pursuit := pursuit }

def OpenCall.make (call : OpenCall) (id : ContextId) : OpenCall :=
  { call with made := id :: call.made }

def OpenCall.drop (call : OpenCall) (id : ContextId) : OpenCall :=
  { call with dropped := id :: call.dropped }

/-- A task is one of those that a call makes below a context. -/
structure OpenCall.Makes (call : OpenCall) (caller : ContextId) (task : Task) : Prop where
  arena : task.context.arena = Machine.ownArena
  parent : task.context.parent = some caller
  reportsTo : task.response = call.response
  ofUnit : ∃ worker, task.context.activity = some (call.unit, worker)
  sized : task.context.results.sizes = call.unit.returns.sizes

end Clearance

/-- On a station every task that has not begun may be run.  While it runs, the rest of the hand stays
as it is. -/
def Station.RunsTasks (station : Station) : Prop :=
  ∀ (task : Task) (rest : Hand),
    (station.runTask task).Follows .clearing station.thread
      ((task.context.id, task.activity (some station.thread) .runnable) :: rest)
      (fun _ last => last = rest) fun _ _ => False

/-- A policy under which every thread that is asked for can be given its name.  Where a name is refused,
the scheduler panics, and a panic that breaks through an init leaves the init as if it had not begun.
-/
def Policy.NamesThreads (policy : Policy) : Prop :=
  ∀ context, policy.threadRefusal? context = none

/-- A policy under which every task that is handed to the scheduler is turned away. -/
def Policy.TurnsAway : Policy → Prop
  | .rehearsed order => order = .reject
  | .ownThreads _ _ spawnFailure => spawnFailure.isSome = true
  | .threadPool _ _ _ => False

variable {thread : ThreadId} {caller context : ContextId} {activity : Activity} {rest : Hand}
  {call : OpenCall} {state : ContextState}

/-! ## Coming, going and waiting -/

theorem Context.release_follows {context : Context} (isOwn : context.arena = Machine.ownArena)
    (nothing : activity.pursuit = .nothing) :
    context.release.Follows .clearing thread ((context.id, activity) :: rest)
      fun _ last => last = rest := by
  refine Process.follows_exchanging_modify fun machine activities _ => ?_
  unfold Machine.alterArena
  rw [isOwn]
  refine ⟨machine.permits_setArena _, exchanges_release rfl fun activities known => ?_⟩
  rw [Machine.scene_setArena, Arena.standing?_release]
  exact known.1.leave (known.2 (context.id, activity) List.mem_cons_self) nothing

theorem beginWait_follows {arena : ArenaKey} (isOwn : arena = Machine.ownArena) {pursuit : Pursuit}
    {upset : Interruption → Hand → Prop} :
    (Effect.atomically (Machine.inArena arena fun records =>
      records.beginWait context)).Follows .clearing thread
        ((context, activity.being .running pursuit) :: rest)
        (fun answer last => answer = .ok () ∧
          last = (context, activity.being .waiting pursuit) :: rest) upset := by
  subst isOwn
  refine Effect.follows_exchanging fun machine activities known => ?_
  have standing := known.standing
  obtain ⟨answer, moved, nextId⟩ := Arena.transition_of_standing? standing
    (show ContextState.running.canMoveTo .waiting = true from rfl)
  have waits : (machine.arena Machine.ownArena).beginWait context =
      (.ok (), ((machine.arena Machine.ownArena).transition context .waiting).2) := by
    have split : (machine.arena Machine.ownArena).transition context .waiting =
        (.ok .running, ((machine.arena Machine.ownArena).transition context .waiting).2) :=
      Prod.ext answer rfl
    unfold Arena.beginWait
    rw [Arena.state?_of_standing? standing, if_neg (by simp [Activity.being]), split]
    rfl
  unfold Machine.inArena
  dsimp only
  rw [waits]
  exact ⟨machine.permits_setArena _, _, exchanges_move moved nextId, rfl, rfl⟩

theorem suspend_stays {token : Hand} (member : (context, activity) ∈ token)
    (waits : activity.state = .waiting) :
    (Process.atomically (Machine.inArena Machine.ownArena fun records =>
      records.suspend context)).Stays .clearing thread token fun answer => answer = .ok () := by
  refine Process.stays_atomically fun machine hands fits holding => ?_
  obtain ⟨activities, known, _⟩ := Discipline.exists_known fits holding
  have standing := known.standing_of_mem member
  rw [waits] at standing
  have suspended : (machine.arena Machine.ownArena).suspend context =
      (.ok (), machine.arena Machine.ownArena) := by
    unfold Arena.suspend
    rw [Arena.state?_of_standing? standing]
  have inert := machine.inert_setArena
  unfold Machine.inArena
  dsimp only
  rw [suspended]
  exact ⟨inert.permits, inert.fits fits, rfl⟩

theorem resumeParent_stays_running {token : Hand} (member : (context, activity) ∈ token)
    (runs : activity.state = .running) :
    (resumeParent context).Stays .clearing thread token fun _ => True := by
  refine Process.stays_modify (fun machine hands fits holding => ?_) trivial
  obtain ⟨activities, known, _⟩ := Discipline.exists_known fits holding
  have standing := known.standing_of_mem member
  rw [runs] at standing
  have resumed : (machine.arena Machine.ownArena).resume context =
      machine.arena Machine.ownArena := by
    unfold Arena.resume
    rw [Arena.state?_of_standing? standing, if_neg nofun]
  have inert := machine.inert_setArena
  unfold Machine.alterArena
  dsimp only
  rw [resumed]
  exact ⟨inert.permits, inert.fits fits⟩

/-! ## Making tasks -/

theorem Effect.inert_modify_follows {update : Machine → Machine} {token : Hand}
    {upset : Interruption → Hand → Prop} (inert : ∀ machine, Inert machine (update machine)) :
    (modify update).Follows .clearing thread token (fun _ last => last = token) upset :=
  follows_work (Process.Follows.weaken (Process.inert_modify inert) fun _ _ reached => reached.1)

theorem tally_follows (count : Tallies → Tallies) {token : Hand}
    {upset : Interruption → Hand → Prop} :
    (tally count).Follows .clearing thread token (fun _ last => last = token) upset :=
  Effect.inert_modify_follows fun _ => ⟨rfl, rfl, rfl⟩

namespace Clearance

theorem OpenCall.Kept.make {response : Response} {nextId : ContextId}
    (kept : call.Kept response nextId) (fewer : call.made.length < call.unit.workers.length)
    (id : ContextId) : (call.make id).Kept response nextId :=
  { kept with
    contributors := fun _ member => List.mem_cons_of_mem _ (kept.contributors member)
    bounded := fewer }

theorem OpenCall.Kept.drop {response : Response} {nextId : ContextId}
    (kept : call.Kept response nextId) {id : ContextId} (contributed : id ∈ response.contributors) :
    (call.drop id).Kept response nextId :=
  { kept with dropped := List.cons_subset.mpr ⟨contributed, kept.dropped⟩ }

theorem Known.keptCall {machine : Machine} {activities : Activities} {hand : Hand}
    (known : Known machine hand activities)
    (member : (caller, activity.being state (.calling call)) ∈ hand) :
    call.response < machine.scene.opened ∧
      call.Kept (machine.response call.response) machine.scene.nextId ∧
      Cleared machine.scene activities call.unit.package caller :=
  known.1.holds caller _ (known.2 _ member)

theorem exchanges_makeTask {machine : Machine} {task : Task} (label : String)
    (fewer : call.made.length < call.unit.workers.length) (makes : call.Makes caller task)
    (isNext : task.context.id = machine.scene.nextId) :
    Exchanges machine
      (machine.setArena Machine.ownArena
        ((machine.arena Machine.ownArena).register ⟨some caller, .created, label⟩).2) thread
      ((caller, activity.being state (.calling call)) :: rest)
      ((task.context.id, task.activity (some thread) .created) ::
        (caller, activity.being state (.calling (call.make task.context.id))) :: rest) := by
  have noted : Exchanges machine machine thread
      ((caller, activity.being state (.calling call)) :: rest)
      ((caller, activity.being state (.calling (call.make task.context.id))) :: rest) := by
    refine exchanges_head rfl id fun activities known => ?_
    have found := known.2 (caller, activity.being state (.calling call)) List.mem_cons_self
    exact known.1.alterCall found rfl rfl rfl (List.subset_cons_self _ _)
      ((known.keptCall List.mem_cons_self).2.1.make fewer _)
  refine noted.trans ?_
  have parent : (task.activity (some thread) .created).parent = some caller := makes.parent
  rw [isNext, ← parent]
  refine exchanges_enter label rfl ?_ rfl ⟨isNext, makes.arena, rfl, by rw [parent]; rfl⟩ ?_
  · intro leaving
    cases leaving
  · intro activities known above isParent
    rw [parent] at isParent
    cases isParent
    obtain ⟨_, kept, _⟩ := known.keptCall List.mem_cons_self
    have found := known.2 (caller, activity.being state (.calling (call.make machine.scene.nextId)))
      List.mem_cons_self
    refine ⟨_, found, ⟨makes.reportsTo, ?_, fun contributed => ?_, makes.ofUnit, makes.sized⟩,
      isNext⟩
    · rw [isNext]
      exact List.mem_cons_self
    · exact absurd (kept.older _ contributed) (by rw [isNext]; exact Nat.lt_irrefl _)

end Clearance

def Callable.task (unit : Callable) (worker : Worker) (parent : Context) (response : ResponseId)
    (inCaller : Bool) (locals : RegisterFile) (id : ContextId) : Task where
  context :=
    { id := id
      parent := some parent.id
      arena := parent.arena
      properties := parent.properties
      activity := some (unit, worker)
      error := none
      inCaller := inCaller
      locals := locals
      results := .ofSizes unit.returns.sizes }
  response := response

theorem registerContext_follows_clearing {worker : Worker} {parent : Context}
    (isOwn : parent.arena = Machine.ownArena) (inCaller : Bool) (locals : RegisterFile)
    (label : String) (fewer : call.made.length < call.unit.workers.length)
    {upset : Interruption → Hand → Prop} :
    (registerContext parent.arena ⟨some parent.id, .created, label⟩).Follows .clearing thread
      ((parent.id, activity.being state (.calling call)) :: rest)
      (fun id last =>
        call.Makes parent.id (call.unit.task worker parent call.response inCaller locals id) ∧
        last = (id, (call.unit.task worker parent call.response inCaller locals id).activity
            (some thread) .created) ::
          (parent.id, activity.being state (.calling (call.make id))) :: rest) upset := by
  refine Effect.follows_exchanging fun machine activities known => ?_
  have makes : ∀ id,
      call.Makes parent.id (call.unit.task worker parent call.response inCaller locals id) :=
    fun id => ⟨isOwn, rfl, rfl, ⟨worker, rfl⟩, RegisterFile.sizes_ofSizes _⟩
  unfold Machine.inArena
  rw [isOwn]
  refine ⟨machine.permits_setArena _, _, ?_, makes _, rfl⟩
  exact exchanges_makeTask label fewer (makes _) rfl

/-- The task of a worker is made below the caller, or its registers cannot be seeded. -/
theorem prepareTask_follows_clearing {worker : Worker} {parent : Context} {source : RegisterFile}
    {arguments : List Nat} (isOwn : parent.arena = Machine.ownArena) (inCaller : Bool)
    (fewer : call.made.length < call.unit.workers.length) :
    (prepareTask call.unit worker parent source arguments call.response inCaller).Follows
      .clearing thread ((parent.id, activity.being state (.calling call)) :: rest)
      (fun task last => call.Makes parent.id task ∧
        (∃ locals, Marshalling.seed worker.locals call.unit.params source arguments = .ok locals) ∧
        last = (task.context.id, task.activity (some thread) .runnable) ::
          (parent.id, activity.being state (.calling (call.make task.context.id))) :: rest)
      (fun interruption last =>
        (∃ overrun, Marshalling.seed worker.locals call.unit.params source arguments =
          .error overrun ∧ interruption = overrun.interruption) ∧
        last = (parent.id, activity.being state (.calling call)) :: rest) := by
  cases seeded : Marshalling.seed worker.locals call.unit.params source arguments with
  | error overrun =>
      unfold prepareTask
      rw [seeded]
      exact ⟨⟨overrun, rfl, rfl⟩, rfl⟩
  | ok locals =>
      unfold prepareTask
      simp only [seeded, Effect.ofAccess, pure_bind]
      refine (@registerContext_follows_clearing thread activity rest call state worker parent isOwn
        inCaller locals _ fewer _).bind ?_
      rintro id _ ⟨makes, rfl⟩
      refine Effect.Follows.bind (tally_follows _) ?_
      rintro _ _ rfl
      refine Effect.Follows.orElseRun_of_never ?_
      refine Effect.Follows.bind (moveContext_follows isOwn rfl) ?_
      rintro _ _ ⟨rfl, rfl⟩
      exact ⟨makes, ⟨locals, rfl⟩, rfl⟩

/-! ## Contributions of tasks -/

theorem Clearance.Sound.contribution {machine : Machine} {activities : Activities}
    (sound : Sound machine.scene activities) {task : Task}
    (found : activities task.context.id = some activity) (role : activity.role = .worker task)
    (nothing : activity.pursuit = .nothing) (outcome : WorkerOutcome) {result : RegisterFile}
    (sized : result.sizes = task.context.results.sizes) :
    (∃ completes, (machine.contribute task.response task.context.id outcome result).1 =
        .ok completes) ∧
      task.context.id ∈ ((machine.contribute task.response task.context.id outcome
        result).2.response task.response).contributors ∧
      Sound (machine.contribute task.response task.context.id outcome result).2.scene
        (Function.update activities task.context.id
          (some { activity with role := .leaving })) := by
  obtain ⟨parent, above, call, _, _, _, reportsTo, expects, opened, kept, _, _⟩ :=
    sound.exists_call found role
  obtain ⟨taken, completes, contributed, returns, staged, contributors, outstanding⟩ :=
    kept.contribute expects outcome (sized.trans expects.sized)
  have contributedTo : (machine.response task.response).contribute task.context.id outcome result =
      (taken, .ok completes) :=
    contributed
  have scene := machine.scene_contribute task.context.id outcome result opened
  rw [contributedTo] at scene
  refine ⟨⟨completes, ?_⟩, ?_, ?_⟩
  · unfold Machine.contribute
    rw [contributedTo]
  · have taking := congrArg (fun scene : Scene => scene.response task.response) scene
    dsimp only at taking
    rw [Function.update_self] at taking
    refine Eq.mpr (congrArg (fun response : Response => task.context.id ∈ response.contributors)
      taking) ?_
    rw [contributors]
    exact List.mem_cons_self
  · rw [scene]
    exact sound.contribute found role nothing returns staged contributors outstanding

theorem dispose_follows {task : Task} (makes : call.Makes caller task) :
    task.dispose.Follows .clearing thread
      ((task.context.id, task.activity (some thread) .runnable) ::
        (caller, activity.being state (.calling call)) :: rest)
      fun _ last =>
        last = (caller, activity.being state (.calling (call.drop task.context.id))) :: rest := by
  have contributed : (Process.modify fun machine => (Machine.contribute task.response
        task.context.id (.faulted task.droppedFault) task.context.results machine).2).Follows
      .clearing thread
        ((task.context.id, task.activity (some thread) .runnable) ::
          (caller, activity.being state (.calling call)) :: rest)
        fun _ last => last =
          (task.context.id, { task.activity (some thread) .runnable with role := .leaving }) ::
            (caller, activity.being state (.calling (call.drop task.context.id))) :: rest := by
    refine Process.follows_exchanging_modify fun machine activities known => ?_
    have contributed := known.1.contribution (known.2 _ List.mem_cons_self) rfl rfl
      (.faulted task.droppedFault) rfl
    have taken := contributed.2.1
    rw [makes.reportsTo] at taken
    have leaves : Exchanges machine (machine.contribute task.response task.context.id
          (.faulted task.droppedFault) task.context.results).2 thread
        ((task.context.id, task.activity (some thread) .runnable) ::
          (caller, activity.being state (.calling call)) :: rest)
        ((task.context.id, { task.activity (some thread) .runnable with role := .leaving }) ::
          (caller, activity.being state (.calling call)) :: rest) :=
      exchanges_head rfl id fun _ known =>
        (known.1.contribution (known.2 _ List.mem_cons_self) rfl rfl _ rfl).2.2
    refine ⟨machine.permits_contribute .., leaves.trans (exchanges_second rfl id fun _ later => ?_)⟩
    have member : (caller, activity.being state (.calling call)) ∈
        (task.context.id, { task.activity (some thread) .runnable with role := .leaving }) ::
          (caller, activity.being state (.calling call)) :: rest :=
      List.mem_cons_of_mem _ List.mem_cons_self
    rw [makes.reportsTo] at later ⊢
    have noted := (later.keptCall member).2.1.drop taken
    exact @Sound.alterCall _ _ _ _ later.1 (later.2 _ member) _ (call.drop task.context.id) rfl rfl
      rfl (List.Subset.refl _) noted
  refine Process.Follows.bind contributed ?_
  rintro _ _ rfl
  exact Context.release_follows makes.arena rfl

/-! ## Handing tasks to the scheduler -/

theorem Machine.waitingTasks_enqueue (machine : Machine) (task : Task) :
    (machine.enqueue task).waitingTasks.Perm (task :: machine.waitingTasks) := by
  unfold waitingTasks enqueue
  rw [← List.append_assoc]
  exact List.perm_append_singleton task _

theorem Machine.waitingTasks_spawn (machine : Machine) (task : Task) :
    (machine.spawn task).waitingTasks.Perm (task :: machine.waitingTasks) := by
  unfold waitingTasks spawn countTaken
  rw [List.append_assoc]
  exact List.perm_middle

theorem offer_follows {task : Task} {update : Machine → Machine}
    (offers : ∀ machine, (update machine).scene = machine.scene ∧
      (update machine).history = machine.history ∧
        (update machine).waitingTasks.Perm (task :: machine.waitingTasks)) :
    (Effect.modify update).Follows .clearing thread
      ((task.context.id, task.activity (some thread) .runnable) :: rest)
      (fun _ last => last = rest) fun _ _ => False := by
  refine Effect.follows_work (Process.follows_exchanging_modify fun machine activities _ => ?_)
  obtain ⟨scene, history, waiting⟩ := offers machine
  refine ⟨machine.permits_of_quiet history fun package outcome isSettled => ?_,
    exchanges_offer scene waiting⟩
  rw [scene]
  exact isSettled

namespace Station

variable {station : Station}

theorem runScheduled_follows (tasks : station.RunsTasks) (task : Task) :
    (station.runScheduled task).Follows .clearing station.thread
      ((task.context.id, task.activity (some station.thread) .runnable) :: rest)
      (fun _ last => last = rest) fun _ _ => False := by
  refine (tasks task rest).bind ?_
  rintro state _ rfl
  exact Effect.inert_modify_follows fun _ => ⟨rfl, rfl, rfl⟩

/-- A task that is handed to the scheduler is run, or waits, or is dropped.  The scheduler fails only
if it turns everything away. -/
theorem schedule_follows_clearing (tasks : station.RunsTasks) (named : station.policy.NamesThreads)
    {task : Task} (makes : call.Makes caller task) :
    (station.schedule task).Follows .clearing station.thread
      ((task.context.id, task.activity (some station.thread) .runnable) ::
        (caller, activity.being state (.calling call)) :: rest)
      (fun _ last => ¬station.policy.TurnsAway ∧
        ∃ later, (later = call ∨ later = call.drop task.context.id) ∧
          last = (caller, activity.being state (.calling later)) :: rest)
      (fun interruption last => station.policy.TurnsAway ∧ (∃ fault, interruption = .fault fault) ∧
        last = (caller, activity.being state (.calling (call.drop task.context.id))) :: rest) := by
  -- A task goes one of three ways: it is run at once, it is let wait, or it is dropped.
  have queued := @offer_follows station.thread
    ((caller, activity.being state (.calling call)) :: rest) task (Machine.enqueue task)
    fun machine => ⟨rfl, rfl, machine.waitingTasks_enqueue task⟩
  have spawned := @offer_follows station.thread
    ((caller, activity.being state (.calling call)) :: rest) task (Machine.spawn task)
    fun machine => ⟨rfl, rfl, machine.waitingTasks_spawn task⟩
  have dropped : (liftM task.dispose : Effect Unit).Follows .clearing station.thread
      ((task.context.id, task.activity (some station.thread) .runnable) ::
        (caller, activity.being state (.calling call)) :: rest)
      (fun _ last =>
        last = (caller, activity.being state (.calling (call.drop task.context.id))) :: rest)
      fun _ _ => False :=
    Effect.follows_work (dispose_follows makes)
  unfold schedule
  split
  · next order isPolicy =>
    rw [isPolicy]
    refine Effect.Follows.bind (Effect.inert_modify_follows fun _ => ⟨rfl, rfl, rfl⟩) ?_
    rintro _ _ rfl
    cases order with
    | inline =>
        refine (runScheduled_follows tasks task).of_never.weaken ?_ fun _ _ => id
        rintro _ _ rfl
        exact ⟨nofun, call, .inl rfl, rfl⟩
    | fifo =>
        refine queued.of_never.weaken ?_ fun _ _ => id
        rintro _ _ rfl
        exact ⟨nofun, call, .inl rfl, rfl⟩
    | lifo =>
        refine queued.of_never.weaken ?_ fun _ _ => id
        rintro _ _ rfl
        exact ⟨nofun, call, .inl rfl, rfl⟩
    | drop =>
        refine dropped.of_never.weaken ?_ fun _ _ => id
        rintro _ _ rfl
        exact ⟨nofun, _, .inr rfl, rfl⟩
    | reject =>
        refine Effect.Follows.bind dropped.of_never ?_
        rintro _ _ rfl
        exact Effect.follows_fail ⟨rfl, ⟨_, rfl⟩, rfl⟩
  · next threadName stackSize spawnFailure isPolicy =>
    rw [named]
    cases spawnFailure with
    | none =>
        refine spawned.of_never.weaken ?_ fun _ _ => id
        rintro _ _ rfl
        rw [isPolicy]
        exact ⟨nofun, call, .inl rfl, rfl⟩
    | some reason =>
        refine Effect.Follows.bind dropped.of_never ?_
        rintro _ _ rfl
        rw [isPolicy]
        exact Effect.follows_fail ⟨rfl, ⟨_, rfl⟩, rfl⟩
  · next multiThreaded threadName size isPolicy =>
    rw [named]
    refine spawned.of_never.weaken ?_ fun _ _ => id
    rintro _ _ rfl
    rw [isPolicy]
    exact ⟨nofun, call, .inl rfl, rfl⟩

end Station

end WorkerMachine
