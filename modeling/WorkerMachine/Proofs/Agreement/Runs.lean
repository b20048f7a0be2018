import WorkerMachine.Proofs.Agreement.Conclusions
import WorkerMachine.Proofs.Clearance.Workers
import WorkerMachine.Proofs.Process.Passing
import WorkerMachine.Proofs.Settling.Hosts
import WorkerMachine.Proofs.Settling.Shapes
import WorkerMachine.Proofs.Settling.Threads
/-!
# Runs of calls

A thread makes a call step by step while any number of other threads work beside it.  What the call
answers is told by the scheduler, which may refuse the tasks; by the parent, which may be in a state
that cannot be left for waiting; and otherwise by the contributions to the call.
-/

namespace WorkerMachine

open Settling

variable {Answer : Type} {arrivals : Arrivals ThreadId Machine (Option Answer)}
  {crowd later : Crowd ThreadId Machine (Option Answer)} {hands : ThreadId → Settling.Hand}
  {station : Station} {request : Request} {early : Nat} {target : RegisterFile}
  {indices : List Nat} {response : ResponseId} {docket : Docket} {token rest : Settling.Hand}
  {invocation : Invocation}

/-! ## Joining -/

/-- How a join has ended that a thread has passed: by what the parent was like at some moment on the
way, and if it could be marked as waiting, by the account of the call. -/
inductive Settling.Joined (arrivals : Arrivals ThreadId Machine (Option Answer)) (parent : ContextId)
    (docket : Docket) (rest : Settling.Hand) (target : RegisterFile) (indices : List Nat)
    (crowd later : Crowd ThreadId Machine (Option Answer)) :
    Except Interruption Unit × RegisterFile → Option Account → Prop
  | refused {moment : Crowd ThreadId Machine (Option Answer)} {fault : Fault} :
      crowd.Leads arrivals moment → moment.Leads arrivals later →
      (moment.state.suspendParent parent).1 = .error fault →
      ¬KnowsActive (Machine.ownArena, parent) rest →
      Joined arrivals parent docket rest target indices crowd later (.error (.fault fault), target)
        none
  | closed {moment : Crowd ThreadId Machine (Option Answer)} (account : Account) :
      crowd.Leads arrivals moment → moment.Leads arrivals later →
      (moment.state.suspendParent parent).1 = .ok () →
      Joined arrivals parent docket rest target indices crowd later
        ((account.response docket.unit.returns docket.waits 1).conclude target indices)
        (some account)

/-- A thread that has passed a join still has the call in hand, for the books about it to be looked at.
-/
theorem Crowd.OrderlyApart.joined
    (welcoming : Crowd.Welcoming .settling [] (fun _ _ _ => True) arrivals)
    (tasks : station.SettlesTasks)
    (orderly : crowd.OrderlyApart .settling [] station.thread hands)
    (isResponse : invocation.response = response)
    (holding : hands station.thread = invocation.kept ++ .call response docket none :: rest)
    {follow : Except Interruption Unit × RegisterFile → Work (Option Answer)}
    {answer : Except Interruption Unit × RegisterFile}
    (passes : Crowd.Passes arrivals station.thread follow answer later
      (station.join invocation target indices) crowd) :
    ∃ hands closed, later.OrderlyApart .settling [] station.thread hands ∧
      .call response docket closed ∈ hands station.thread ∧
      Joined arrivals invocation.parent docket rest target indices crowd later answer closed := by
  rw [Station.join_eq] at passes
  obtain ⟨suspended, marked, passesMark, passesOn⟩ := passes.exists_between
  obtain ⟨moment, leads, leadsMarked, isAnswer⟩ := passesMark.exists_moment
  have leadsLater := leadsMarked.trans passesOn.leads
  -- What becomes of the join is decided at the moment when the parent is to be marked.
  obtain ⟨handsMarked, orderlyMarked, isHand, isSuspended⟩ :=
    orderly.passes welcoming holding (suspend_settles invocation.parent) passesMark
  cases suspended with
  | ok _ =>
    obtain ⟨handsAfter, orderlyAfter, account, rfl, isHand⟩ :=
      orderlyMarked.passes welcoming isHand
        (Station.joinMarked_settles tasks true isResponse target indices) passesOn
    refine ⟨handsAfter, some account, orderlyAfter, ?_, .closed account leads leadsLater isAnswer.symm⟩
    rw [isHand]
    exact List.mem_cons_self
  | error fault =>
    obtain ⟨_, abandoned, passesAbandon, passesDone⟩ := passesOn.exists_between
    obtain ⟨handsAbandoned, orderlyAbandoned, isHand⟩ := orderlyMarked.passes welcoming isHand
      (Invocation.abandon_settles true) passesAbandon
    obtain ⟨rfl, handsAfter, orderlyAfter, sameHand⟩ :=
      orderlyAbandoned.passes_done welcoming passesDone
    have unknown : ¬KnowsActive (Machine.ownArena, invocation.parent) rest := by
      rintro ⟨item, member, tells⟩
      obtain never | ⟨_, _, unknown⟩ := isSuspended
      · cases never
      · exact unknown ⟨item, List.mem_append_right _ (List.mem_cons_of_mem _ member), tells⟩
    refine ⟨handsAfter, none, orderlyAfter, ?_, .refused leads leadsLater isAnswer.symm unknown⟩
    rw [sameHand, isHand]
    exact List.mem_cons_self

theorem Settling.Joined.of_leads {first : Crowd ThreadId Machine (Option Answer)}
    {parent : ContextId} {answer : Except Interruption Unit × RegisterFile} {closed : Option Account}
    (joined : Joined arrivals parent docket rest target indices crowd later answer closed)
    (before : first.Leads arrivals crowd) :
    Joined arrivals parent docket rest target indices first later answer closed := by
  cases joined with
  | refused leads leadsLater isAnswer unknown =>
    exact .refused (before.trans leads) leadsLater isAnswer unknown
  | closed account leads leadsLater isAnswer =>
    exact .closed account (before.trans leads) leadsLater isAnswer

/-! ## Going through all steps -/

/-- How an invocation in steps has ended that a thread has passed: the scheduler has refused its tasks,
or it has been joined. -/
inductive Settling.Stepped (arrivals : Arrivals ThreadId Machine (Option Answer)) (station : Station)
    (request : Request) (docket : Docket) (rest : Settling.Hand) (target : RegisterFile)
    (indices : List Nat) (crowd later : Crowd ThreadId Machine (Option Answer)) :
    Except Interruption (Except Interruption Unit × RegisterFile) → Option Account → Prop
  | refused {context : ContextId} {interruption : Interruption} :
      request.unit.scheduledWorkers ≠ [] → station.policy.refusal? context = some interruption →
      Stepped arrivals station request docket rest target indices crowd later (.error interruption)
        none
  | joined {answer : Except Interruption Unit × RegisterFile} {closed : Option Account} :
      station.Accepts request.unit.scheduledWorkers →
      Joined arrivals request.parent.id docket rest target indices crowd later answer closed →
      Stepped arrivals station request docket rest target indices crowd later (.ok answer) closed

/-- What is requested can be dispatched, as far as it depends on the registers of the arguments. -/
structure Settling.Request.Ready (request : Request) : Prop where
  sound : request.unit.Sound
  arity : request.unit.checkArity request.arguments.length = .ok ()
  seeded : ∀ worker ∈ request.unit.workers, ∃ locals,
    Marshalling.seed worker.locals request.unit.params request.source request.arguments = .ok locals

/-- Below a parent that is active, only the scheduler keeps a call from having its tasks made. -/
theorem Settling.Request.Ready.refused (ready : request.Ready)
    (known : KnowsActive request.parent.place token) {interruption : Interruption}
    (hinders : station.Hinders request.unit request.parent request.source request.arguments
      request.waits token interruption) :
    request.unit.scheduledWorkers ≠ [] ∧
      ∃ context, station.policy.refusal? context = some interruption := by
  cases hinders with
  | arity notRight =>
    rw [ready.arity] at notRight
    cases notRight
  | parent _ unknown => exact absurd known unknown
  | seeding member notSeeded =>
    obtain ⟨locals, seeded⟩ := ready.seeded _ member
    rw [seeded] at notSeeded
    cases notSeeded
  | refused isScheduled isRefused => exact ⟨isScheduled, _, isRefused⟩

/-- A thread that has passed an invocation in steps still has the call in hand. -/
theorem Crowd.OrderlyApart.stepped
    (welcoming : Crowd.Welcoming .settling [] (fun _ _ _ => True) arrivals)
    (tasks : station.SettlesTasks)
    (orderly : crowd.OrderlyApart .settling [] station.thread hands) (ready : request.Ready)
    (known : KnowsActive request.parent.place token)
    (holding : hands station.thread = .call response (request.docket []) none :: token)
    {follow : Except Interruption (Except Interruption Unit × RegisterFile) → Work (Option Answer)}
    {answer : Except Interruption (Except Interruption Unit × RegisterFile)}
    (passes : Crowd.Passes arrivals station.thread follow answer later
      (station.goOnInSteps request early target indices response).run crowd) :
    ∃ hands docket closed, later.OrderlyApart .settling [] station.thread hands ∧
      .call response docket closed ∈ hands station.thread ∧
      (∃ made lost, docket = { request.docket made with lost := lost }) ∧
      Stepped arrivals station request docket token target indices crowd later answer closed := by
  unfold Station.goOnInSteps at passes
  rw [Effect.run_bind] at passes
  obtain ⟨dispatched, made, passesMake, passesOn⟩ := passes.exists_between
  obtain ⟨handsMade, orderlyMade, reached⟩ := orderly.passes welcoming holding
    (Station.makeTasks_settles tasks true rfl rfl) passesMake
  cases dispatched with
  | error interruption =>
    have breaksOff : station.BreaksOff true (request.docket []) response token interruption
        (handsMade station.thread) := reached
    obtain ⟨rfl, handsAfter, orderlyAfter, sameHand⟩ := orderlyMade.passes_done welcoming passesOn
    cases breaksOff with
    | broken breaks tasksMade lost _ isHand =>
      obtain ⟨isScheduled, context, isRefused⟩ := ready.refused known (breaks token)
      refine ⟨handsAfter, { request.docket tasksMade with lost := lost }, none, orderlyAfter, ?_,
        ⟨tasksMade, lost, rfl⟩, .refused isScheduled isRefused⟩
      rw [sameHand, isHand]
      exact List.mem_cons_self
    | refused _ unknown _ => exact absurd known unknown
  | ok invocation =>
    obtain ⟨accepts, tasksMade, task, _, _, rfl, isHand⟩ := reached
    dsimp only at passesOn
    rw [Effect.run_bind] at passesOn
    obtain ⟨outcome, ran, passesRun, passesLeft⟩ := passesOn.exists_between
    let invocation : Invocation := ⟨request.unit, request.parent.id, response, some task⟩
    have holdingMade : handsMade station.thread =
        invocation.kept ++ .call response (request.docket tasksMade) none :: token := isHand
    have runs : (station.runFirstTimes early invocation).Follows .settling station.thread
        (invocation.kept ++ .call response (request.docket tasksMade) none :: token)
        (fun left last => left.parent = request.parent.id ∧ left.response = response ∧
          last = left.kept ++ .call response (request.docket tasksMade) none :: token)
        fun _ _ => False :=
      Station.runFirstTimes_settles tasks early
    obtain ⟨handsRan, orderlyRan, reached⟩ :=
      orderlyMade.passes welcoming holdingMade runs passesRun
    cases outcome with
    | error interruption => exact False.elim reached
    | ok left =>
      obtain ⟨isParent, isResponse, isHand⟩ := reached
      have viewed : (liftM (station.join left target indices) :
          Effect (Except Interruption Unit × RegisterFile)).run =
            (station.join left target indices).bind fun answer => .done (.ok answer) :=
        rfl
      obtain ⟨answer, rfl, passesJoin⟩ := passesLeft.of_view viewed
      obtain ⟨handsAfter, closed, orderlyAfter, member, joined⟩ :=
        orderlyRan.joined welcoming tasks isResponse isHand passesJoin
      rw [isParent] at joined
      exact ⟨handsAfter, request.docket tasksMade, closed, orderlyAfter, member,
        ⟨tasksMade, false, rfl⟩,
        .joined accepts (joined.of_leads (passesMake.leads.trans passesRun.leads))⟩

/-- An invocation in steps opens its response with its first step. -/
theorem Crowd.OrderlyApart.opened
    (welcoming : Crowd.Welcoming .settling [] (fun _ _ _ => True) arrivals)
    {thread : ThreadId} (orderly : crowd.OrderlyApart .settling [] thread hands)
    (ready : request.Ready)
    {follow : Except Interruption (Except Interruption Unit × RegisterFile) → Work (Option Answer)}
    {answer : Except Interruption (Except Interruption Unit × RegisterFile)}
    (setsOut : Crowd.SetsOut arrivals thread follow answer later
      (station.invokeInSteps request early target indices).run crowd) :
    ∃ opened handsOpened, crowd.Leads arrivals opened ∧
      opened.OrderlyApart .settling [] thread handsOpened ∧
      handsOpened thread =
        .call crowd.state.responses.size (request.docket []) none :: hands thread ∧
      Crowd.Passes arrivals thread follow answer later
        (station.goOnInSteps request early target indices crowd.state.responses.size).run opened := by
  -- The number of the arguments is right, so the first step is the one that opens the response.
  have isOpening : request.openResponse.run =
      (Process.atomically (Machine.openResponse request.unit.returns request.waits
        request.unit.workers.length)).bind fun response => .done (.ok response) := by
    unfold Request.openResponse
    rw [ready.arity]
    rfl
  rw [Station.invokeInSteps_eq, Effect.run_bind] at setsOut
  obtain ⟨outcome, opened, setsOutFirst, passesOn⟩ := setsOut.exists_between fun ended isDone => by
    rw [isOpening] at isDone
    cases isDone
  have passesOpen := setsOutFirst.passes
  rw [isOpening] at setsOutFirst
  have isResponse : .ok crowd.state.responses.size = outcome := by
    cases setsOutFirst with
    | step _ _ passes => exact passes.eq_of_done
  subst isResponse
  obtain ⟨handsOpened, orderlyOpened, isHand⟩ :=
    orderly.passes welcoming rfl (Station.openRequested_settles ready.sound) passesOpen
  exact ⟨opened, handsOpened, passesOpen.leads, orderlyOpened, isHand, passesOn⟩

/-! ## What runs answer -/

def Settling.Request.seeds (request : Request) (worker : Worker) : RegisterFile :=
  (Marshalling.seed worker.locals request.unit.params request.source
    request.arguments).toOption.getD .empty

/-- Whatever has started for a call that was opened before is a worker of what is requested, and has
been seeded from the registers of the arguments. -/
def Settling.Request.Seeds (request : Request) (before after : Machine) : Prop :=
  ∀ task ∈ after.starts before.responses.size, task.worker ∈ request.unit.workers ∧
    Marshalling.seed task.worker.locals request.unit.params request.source request.arguments =
      .ok task.context.locals

/-- What comes of what is requested, if workers conduct themselves so and its tasks finish in this order:
a fault, if the parent may not be marked as waiting, and otherwise what is concluded from the
contributions. -/
def Settling.Request.conclude (request : Request) (standing : Except Fault Unit)
    (conduct : Worker → RegisterFile → WorkerOutcome × RegisterFile) (order : List Finish) :
    RegisterFile → List Nat → Except Interruption Unit × RegisterFile :=
  match standing with
  | .error fault => fun target _ => (.error (.fault fault), target)
  | .ok () => Contribution.conclude request.unit.returns
    (order.map (Finish.contribution conduct request.seeds))

/-- What is answered to what is requested: the refusal of the scheduler, or what comes of the call. -/
inductive Settling.Request.Answers (request : Request) (policy : Policy)
    (conclude : RegisterFile → List Nat → Except Interruption Unit × RegisterFile)
    (target : RegisterFile) (indices : List Nat) :
    Except Interruption (Except Interruption Unit × RegisterFile) → Prop
  | refused {context : ContextId} {interruption : Interruption} :
      request.unit.scheduledWorkers ≠ [] → policy.refusal? context = some interruption →
      Answers request policy conclude target indices (.error interruption)
  | concluded {answer : Except Interruption Unit × RegisterFile} :
      (request.unit.scheduledWorkers ≠ [] → ∀ context, policy.refusal? context = none) →
      request.unit.returns.Concludes conclude → answer = conclude target indices →
      Answers request policy conclude target indices (.ok answer)

/-- Whether the parent of a call may be marked as waiting, as it stands from one moment to another.  A
parent of the machine's own arena that runs or waits may.  A parent of another arena is known in the
machine's own one by its number only, and there it depends on what has this number. -/
def Settling.Stands (arrivals : Arrivals ThreadId Machine (Option Answer)) (parent : Context)
    (standing : Except Fault Unit) (crowd later : Crowd ThreadId Machine (Option Answer)) : Prop :=
  parent.arena = Machine.ownArena ∧ standing = .ok () ∨
    ∀ moment, crowd.Leads arrivals moment → moment.Leads arrivals later →
      (moment.state.suspendParent parent.id).1 = standing

section Answers

variable {conduct : Worker → RegisterFile → WorkerOutcome × RegisterFile} {order : List Finish}
  {standing : Except Fault Unit}

theorem Settling.Course.seeds {machine : Machine} {account : Account} {made : List Task}
    {lost : Bool}
    (course : Course machine { request.docket made with lost := lost } account response) :
    ∀ task ∈ machine.starts response, task.worker ∈ request.unit.workers ∧
      Marshalling.seed task.worker.locals request.unit.params request.source request.arguments =
        .ok task.context.locals := by
  intro task started
  have isMade := course.started task started
  refine ⟨?_, (course.kept.made task isMade).1.seeded⟩
  have planned := course.kept.planned.subset (List.mem_map_of_mem isMade)
  obtain isScheduled | isLast := List.mem_append.mp planned
  · obtain ⟨worker, member, isPart⟩ := List.mem_map.mp isScheduled
    rw [← show worker = task.worker from congrArg Prod.fst isPart]
    exact List.mem_cons_of_mem _ member
  · rw [show task.worker = request.unit.callerWorker from
      congrArg Prod.fst (List.mem_singleton.mp isLast)]
    exact List.mem_cons_self

/-- The contributions to a call tell the same as the order in which its tasks have finished. -/
theorem Settling.Course.conclude_eq {machine : Machine} {account : Account} {made : List Task}
    {lost : Bool}
    (course : Course machine { request.docket made with lost := lost } account response)
    (conducts : machine.Conducts response conduct) :
    Contribution.conclude request.unit.returns account.accepted =
      Contribution.conclude request.unit.returns
        ((machine.finishes response).map (Finish.contribution conduct request.seeds)) := by
  apply Contribution.conclude_eq_of_alike
  apply course.alike conducts
  intro task isMade
  have seeded : Marshalling.seed task.worker.locals request.unit.params request.source
      request.arguments = .ok task.context.locals :=
    (course.kept.made task isMade).1.seeded
  unfold Request.seeds
  rw [seeded]
  rfl

/-- What is answered to a thread that makes a call in steps below a parent that it knows to be active. -/
theorem Crowd.OrderlyApart.answers
    (welcoming : Crowd.Welcoming .settling [] (fun _ _ _ => True) arrivals)
    (tasks : station.SettlesTasks)
    (orderly : crowd.OrderlyApart .settling [] station.thread hands) (ready : request.Ready)
    (truths : ∀ worker file, (conduct worker file).2.HasTruths)
    (known : KnowsActive request.parent.place (hands station.thread))
    {follow : Except Interruption (Except Interruption Unit × RegisterFile) → Work (Option Answer)}
    {answer : Except Interruption (Except Interruption Unit × RegisterFile)}
    (setsOut : Crowd.SetsOut arrivals station.thread follow answer later
      (station.invokeInSteps request early target indices).run crowd)
    (conducts : later.state.Conducts crowd.state.responses.size conduct)
    (isOrder : later.state.finishes crowd.state.responses.size = order)
    (stands : Stands arrivals request.parent standing crowd later) :
    request.Answers station.policy (request.conclude standing conduct order) target indices answer ∧
      request.Seeds crowd.state later.state := by
  obtain ⟨opened, handsOpened, leads, orderlyOpened, holding, passes⟩ :=
    orderly.opened welcoming ready setsOut
  obtain ⟨handsAfter, docket, closed, orderlyAfter, member, ⟨made, lost, rfl⟩, stepped⟩ :=
    orderlyOpened.stepped welcoming tasks ready known holding passes
  obtain ⟨books, agree⟩ := orderlyAfter.fits
  obtain ⟨isOpened, isDocket, isAccount⟩ := agree.held _ _ member
  have course := agree.course isOpened
  rw [isDocket] at course
  refine ⟨?_, course.seeds⟩
  cases stepped with
  | refused isScheduled isRefused => exact .refused isScheduled isRefused
  | joined accepts joined =>
    cases joined with
    | @refused _ fault leadsMoment leadsLater isAnswer unknown =>
      have isStanding : standing = .error fault := by
        obtain ⟨own, _⟩ | always := stands
        · unfold Context.place at known
          rw [own] at known
          exact absurd known unknown
        · rw [← always _ (leads.trans leadsMoment) leadsLater]
          exact isAnswer
      subst isStanding
      exact .concluded accepts (.failed _ fun _ _ => rfl) rfl
    | closed account leadsMoment leadsLater isAnswer =>
      have isStanding : standing = .ok () := by
        obtain ⟨_, isStanding⟩ | always := stands
        · exact isStanding
        · rw [← always _ (leads.trans leadsMoment) leadsLater]
          exact isAnswer
      subst isStanding
      obtain ⟨rfl, _⟩ := isAccount account rfl
      -- The closed account is among the books, which tell how each task of the call has finished.
      have isConcluded := course.conclude_eq conducts
      rw [isOrder] at isConcluded
      have told := (Contribution.conclude_response ready.sound.returns course.kept.fits request.waits
        1 target indices).trans (congrFun (congrFun isConcluded target) indices)
      have concludes := Contribution.concludes ready.sound.returns course.kept.fits
        (course.hasTruths conducts truths)
      rw [isConcluded] at concludes
      exact .concluded accepts concludes told

end Answers

/-- A thread makes a call below a parent, while any number of other threads work beside it.  It knows
that the parent runs or waits, and in the end it has its answer.  With its first step it opens the
response of the call.  The workers of the call conduct themselves in a certain way, and its tasks finish
in a certain order. -/
inductive Setup.Runs (setup : Setup) (interpreter : Interpreter) (parent : Context)
    (standing : Except Fault Unit)
    (conduct : Worker → RegisterFile → WorkerOutcome × RegisterFile) (order : List Finish)
    {First : Type} (call : Station → Work First) (answer : First) : Machine → Machine → Prop
  | run {Answer : Type} {thread : ThreadId} {nesting depth : Nat} {hands : ThreadId → Settling.Hand}
      {crowd later : Crowd ThreadId Machine (Option Answer)} {follow : First → Work (Option Answer)} :
      crowd.OrderlyApart .settling [] thread hands → KnowsActive parent.place (hands thread) →
      Crowd.SetsOut (setup.Starts interpreter depth) thread follow answer later
        (call (setup.station interpreter thread nesting)) crowd →
      Stands (setup.Starts interpreter depth) parent standing crowd later →
      later.state.Conducts crowd.state.responses.size conduct →
      later.state.finishes crowd.state.responses.size = order →
      Runs setup interpreter parent standing conduct order call answer crowd.state later.state

namespace Setup.Runs

variable {setup : Setup} {interpreter : Interpreter} {parent : Context}
  {conduct : Worker → RegisterFile → WorkerOutcome × RegisterFile} {order : List Finish}
  {standing : Except Fault Unit} {before after : Machine}

/-- Where a call only looks at an answer in its own way, it comes to that answer first. -/
theorem of_view {First Second : Type} {whole : Station → Work Second} {call : Station → Work First}
    {view : First → Second} {second : Second}
    (isWhole : ∀ station, whole station = (call station).bind fun first => .done (view first))
    (runs : setup.Runs interpreter parent standing conduct order whole second before after) :
    ∃ first, second = view first ∧
      setup.Runs interpreter parent standing conduct order call first before after := by
  cases runs with
  | run orderly known setsOut stands conducts isOrder =>
    obtain ⟨first, isView, setsOutFirst⟩ := setsOut.of_view (isWhole _)
    exact ⟨first, isView, .run orderly known setsOutFirst stands conducts isOrder⟩

/-- A host that opens a root, where nothing has been called before, makes a run if it moves alone. -/
theorem of_alone (sound : setup.program.Sound) (settles : interpreter.Settles) {First : Type}
    {call : Station → Work First} {answer : First} {thread : ThreadId} {nesting : Nat}
    {machine opened last : Machine} {properties : PropertiesKey} {root : Context}
    {ready : Machine → Bool} {update : Machine → Machine} {next : Machine → Work First}
    (uncalled : machine.Uncalled)
    (opens : (openRoot Machine.ownArena properties).run.runAlone machine = some (.ok root, opened))
    (ofRoot : parent.place = root.place) (own : parent.arena = Machine.ownArena)
    (begins : call (setup.station interpreter thread nesting) = .step ready update next)
    (ran : (call (setup.station interpreter thread nesting)).runAlone opened = some (answer, last))
    (conducts : last.Conducts opened.responses.size conduct)
    (isOrder : last.finishes opened.responses.size = order) :
    setup.Runs interpreter parent (.ok ()) conduct order call answer opened last := by
  let station := setup.station interpreter thread nesting
  let follow : Except Interruption Context → Work (Option Unit) := fun _ => .done none
  let first : Crowd ThreadId Machine (Option Unit) := ⟨machine, fun other =>
    if other = thread then some ((openRoot Machine.ownArena properties).run.bind follow) else none⟩
  have welcoming : Crowd.Welcoming .settling [] (fun _ _ _ => True)
      (setup.Starts interpreter 0 : Arrivals ThreadId Machine (Option Unit)) :=
    Setup.starts_welcoming_settling sound settles 0
  have orderly : first.OrderlyApart .settling [] thread fun _ => [] :=
    .of_alone none uncalled.fits (fun _ different => if_neg different) fun _ _ => rfl
  have opensRoot : (openRoot Machine.ownArena properties).Follows .settling thread []
      (fun root last => last = .context root.place true :: []) fun _ _ => False :=
    openRoot_settles Machine.ownArena properties
  obtain ⟨hands, orderlyOpened, isHand⟩ := orderly.passes welcoming rfl opensRoot
    (Crowd.passes_of_runAlone (if_pos rfl) opens)
  have known : KnowsActive parent.place (hands thread) := by
    refine ⟨.context root.place true, ?_, ofRoot.symm, rfl⟩
    rw [show hands thread = _ from isHand]
    exact List.mem_cons_self
  let goesOn : First → Work (Option Unit) := fun _ => .done none
  let crowd := (first.after thread opened (follow (.ok root))).instead thread
    ((call station).bind goesOn)
  have begun : crowd.process thread = some ((call station).bind goesOn) := Function.update_self ..
  have setsOut : Crowd.SetsOut (setup.Starts interpreter 0) thread goesOn answer
      (crowd.after thread last (goesOn answer)) (call station) crowd := by
    rw [begins] at begun ran ⊢
    exact Crowd.setsOut_of_runAlone begun ran
  exact .run (orderlyOpened.instead _) known setsOut (.inl ⟨own, rfl⟩) conducts isOrder

/-- What a run of an invocation in steps answers, and how its workers have been seeded. -/
theorem answers (sound : setup.program.Sound) (settles : interpreter.Settles)
    (ready : request.Ready) (truths : ∀ worker file, (conduct worker file).2.HasTruths)
    {answer : Except Interruption (Except Interruption Unit × RegisterFile)}
    (runs : setup.Runs interpreter request.parent standing conduct order
      (fun station => (station.invokeInSteps request early target indices).run) answer before
      after) :
    request.Answers setup.policy (request.conclude standing conduct order) target indices answer ∧
      request.Seeds before after := by
  cases runs with
  | @run Answer thread nesting depth hands crowd later follow orderly known setsOut stands conducts
      isOrder =>
    have tasks := Setup.station_settlesTasks sound settles thread nesting
    have welcoming : Crowd.Welcoming .settling [] (fun _ _ _ => True)
        (setup.Starts interpreter depth : Arrivals ThreadId Machine (Option Answer)) :=
      Setup.starts_welcoming_settling sound settles depth
    have isThread := Setup.thread_station setup interpreter thread nesting
    have isPolicy : (setup.station interpreter thread nesting).policy = setup.policy :=
      congrArg Setup.policy (setup.toSetup_station interpreter thread nesting)
    generalize setup.station interpreter thread nesting = station at *
    subst isThread
    rw [← isPolicy]
    exact orderly.answers welcoming tasks ready truths known setsOut conducts isOrder stands

end Setup.Runs

end WorkerMachine
