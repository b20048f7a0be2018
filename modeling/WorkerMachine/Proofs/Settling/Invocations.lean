import Mathlib.Data.Set.Finite.Lattice
import WorkerMachine.Proofs.Settling.Responses
/-!
# Invocations among threads

Any number of threads work on a machine, and one of them dispatches a unit.  From the moment on when
it has the handle, a copy of the books about the call is kept aside.  So whatever all the threads do
until some later moment, the response is settled by the tasks that were made for the call.
-/

namespace WorkerMachine

open Settling

variable {Answer : Type} {arrivals : Arrivals ThreadId Machine (Option Answer)}
  {crowd middle later before after : Crowd ThreadId Machine (Option Answer)}
  {hands : ThreadId → Settling.Hand} {station : Station} {prior : Work Request}
  {follow : Request → Except Interruption Invocation → Work (Option Answer)} {request : Request}
  {invocation : Invocation}

/-! ## Numbers for copies -/

/-- Whoever has something in hand has come, so only finitely many copies are in hand. -/
theorem Settling.exists_fresh_number {goal : ThreadId → Option Answer → Settling.Hand → Prop}
    (finite : crowd.IsFinite) (orderly : crowd.OrderlyWith .settling [] goal hands) :
    ∃ number, ∀ thread, ∀ item ∈ hands thread, item.key ≠ .copy number := by
  have ofItem : ∀ item : Item, {number | item.key = .copy number}.Finite := by
    intro item
    apply Set.Subsingleton.finite
    intro first isFirst second isSecond
    exact Key.copy.inj (isFirst.symm.trans isSecond)
  have ofThread : ∀ thread, (⋃ item ∈ {item | item ∈ hands thread},
      {number | item.key = .copy number}).Finite :=
    fun thread => Set.Finite.biUnion (hands thread).finite_toSet fun item _ => ofItem item
  obtain ⟨number, isNew⟩ := Set.Finite.exists_notMem (Set.Finite.biUnion finite fun thread _ => ofThread thread)
  refine ⟨number, fun thread item member isCopy => isNew ?_⟩
  refine Set.mem_iUnion₂.mpr ⟨thread, ?_, Set.mem_iUnion₂.mpr ⟨item, member, isCopy⟩⟩
  intro missing
  rw [orderly.absent thread missing] at member
  cases member

/-! ## After an invocation has been handed out -/

/-- From when a call has all its tasks, the books about it stay. -/
theorem Settling.exists_agree_of_leads
    (welcoming : Crowd.Welcoming .settling [] (fun _ _ _ => True) arrivals)
    (finite : crowd.IsFinite) (orderly : crowd.OrderlyWith .settling [] (fun _ _ _ => True) hands)
    {response : ResponseId} {docket : Docket} {closed : Option Account} {thread : ThreadId}
    (member : .call response docket closed ∈ hands thread) (whole : docket.Whole)
    (leads : crowd.Leads arrivals later) :
    ∃ books hands, Agree later.state books hands ∧ response < later.state.responses.size ∧
      books.docket response = docket := by
  -- A thread that does not come all the while keeps a copy.
  obtain ⟨spare, notThere⟩ := Set.Finite.exists_notMem (finite.leads leads)
  have missing : later.process spare = none := not_not.mp notThere
  have holdsNothing : hands spare = [] := by
    apply orderly.absent spare
    exact leads.stays spare missing
  obtain ⟨number, isNew⟩ := exists_fresh_number finite orderly
  obtain ⟨books, agree⟩ := orderly.fits
  have copied := agree.copyDown holdsNothing member whole isNew
  obtain ⟨handsAfter, ⟨booksAfter, agreeAfter⟩, isHeld⟩ :=
    orderly.exists_fits_of_leads none welcoming ⟨books, copied⟩ leads missing
  have held := agreeAfter.held spare (.copy number response docket)
  rw [isHeld] at held
  obtain ⟨opened, isDocket, _⟩ := held List.mem_cons_self
  exact ⟨booksAfter, handsAfter, agreeAfter, opened, isDocket⟩

/-- As threads go about a machine that they keep books about, nothing is undone. -/
theorem Settling.advances_of_leads
    (welcoming : Crowd.Welcoming .settling [] (fun _ _ _ => True) arrivals)
    (orderly : crowd.Orderly .settling [] fun _ _ _ => True) (leads : crowd.Leads arrivals later) :
    Advances crowd.state later.state := by
  induction leads with
  | refl => exact Advances.refl crowd.state
  | tail before moved inductionHypothesis =>
    obtain ⟨mover, moved⟩ := moved
    have permitted := ((orderly.leads welcoming before).move welcoming moved).1
    exact inductionHypothesis.trans (Proceeds.advances permitted)

theorem Station.Opens.follows {token : Settling.Hand} (opens : station.Opens token prior follow)
    (tasks : station.SettlesTasks) :
    (station.opening prior).Follows .settling station.thread token fun (request, outcome) last =>
      (follow request outcome).Follows .settling station.thread last (fun _ _ => True) ∧
        ∀ invocation, outcome = .ok invocation → ∃ docket : Docket, docket.Whole ∧
          .call invocation.response docket none ∈ last ∧
          docket.unit = request.unit ∧ docket.parent = request.parent ∧
          ∃ task ∈ docket.made, task.part = (request.unit.callerWorker, true) ∧
            invocation = ⟨request.unit, request.parent.id, invocation.response, some task⟩ := by
  unfold opening
  apply Process.Follows.bind opens
  rintro request _ ⟨handles, rest, rfl, uses⟩
  apply Process.Follows.bind (begin_settles tasks uses.sound)
  intro outcome last reached
  cases outcome with
  | ok invocation =>
    obtain ⟨made, task, response, whole, ⟨isMade, isPart⟩, rfl, rfl⟩ := reached
    let docket : Docket := ⟨request.unit, request.parent, request.source, request.arguments,
      request.waits, made, false⟩
    constructor
    · exact @Handles.follows _ rest station tasks
        ((⟨request.unit, request.parent.id, response, some task⟩, docket) :: handles) _
        (uses.gotten _)
    · intro invocation isOk
      cases isOk
      refine ⟨docket, whole, ?_, rfl, rfl, task, isMade, isPart, rfl⟩
      exact List.mem_cons_of_mem _ List.mem_cons_self
  | error interruption =>
    rw [show last = _ from reached]
    refine ⟨Handles.follows tasks (uses.refused interruption), ?_⟩
    intro invocation never
    cases never

/-- However a crowd goes on after one of its threads has got the handle of an invocation, the response
of the invocation is settled by the tasks of its workers, and nothing but their contributions ever
happens to it. -/
theorem Station.Opens.settles {token : Settling.Hand} (opens : station.Opens token prior follow)
    (tasks : station.SettlesTasks)
    (welcoming : Crowd.Welcoming .settling [] (fun _ _ _ => True) arrivals)
    (finite : crowd.IsFinite) (orderly : crowd.OrderlyWith .settling [] (fun _ _ _ => True) hands)
    {thread : ThreadId} (isThread : station.thread = thread) (holding : hands thread = token)
    (passes : Crowd.Passes arrivals thread (fun (request, outcome) => follow request outcome)
      (request, .ok invocation) middle (station.opening prior) crowd)
    (leads : middle.Leads arrivals later) :
    ∃ tasks, HandedOut request invocation tasks ∧
      SettledBy later.state invocation.response tasks ∧
      ∀ before mover after, crowd.Leads arrivals before →
        Crowd.Move arrivals before mover after → after.Leads arrivals later →
        invocation.response < before.state.responses.size →
        Contributes before.state after.state invocation.response tasks := by
  subst isThread
  have opened := opens.follows tasks
  rw [← holding] at opened
  obtain ⟨handsThen, orderlyThen, _, handedOut⟩ := orderly.passes welcoming opened
    (fun _ _ reached => reached.1) passes
  obtain ⟨docket, whole, member, ofUnit, ofParent, task, isMade, isPart, isInvocation⟩ :=
    handedOut invocation rfl
  obtain ⟨books, handsLater, agree, isOpened, isDocket⟩ :=
    exists_agree_of_leads welcoming (finite.leads passes.leads) orderlyThen member whole leads
  have kept := agree.kept invocation.response isOpened
  have settled := agree.settles isOpened (by rwa [isDocket])
  rw [isDocket] at kept settled
  refine ⟨docket.made, ?_, settled, ?_⟩
  · constructor
    case ofWorkers =>
      rw [whole.1, Docket.plan, ofUnit]
    case distinct => exact kept.distinct
    case made =>
      intro task isMade
      rw [← ofUnit, ← ofParent]
      exact (kept.made task isMade).1.shape
    case kept => exact ⟨task, isMade, isPart, isInvocation⟩
  · intro before mover after leadsBefore moved leadsAfter isOpenedBefore
    have orderlyBefore := Crowd.Orderly.leads welcoming ⟨hands, orderly⟩ leadsBefore
    obtain ⟨permitted, orderlyAfter⟩ := orderlyBefore.move welcoming moved
    have contributes := agree.contributes permitted
      (advances_of_leads welcoming orderlyAfter leadsAfter) isOpenedBefore
    rwa [isDocket] at contributes

/-! ## Threads of hosts, and threads started for tasks -/

/-- A thread is about to carry out a process.  It is one of the threads of a host, or has just been
started for a task that nobody had taken up.  The others keep the books, and nothing had been called
before the first of them began. -/
inductive Setup.Begins (setup : Setup) (interpreter : Interpreter) (depth : Nat) (thread : ThreadId)
    (process : Work (Option Answer)) :
    Settling.Hand → Crowd ThreadId Machine (Option Answer) → Prop
  | host {crowd : Crowd ThreadId Machine (Option Answer)} :
      crowd.state.Uncalled → crowd.IsFinite → crowd.process thread = some process →
      (∀ other held, other ≠ thread → crowd.process other = some held →
        held.Follows .settling other [] fun _ _ => True) →
      Begins setup interpreter depth thread process [] crowd
  | started {first crowd : Crowd ThreadId Machine (Option Answer)} {front rest : List Task}
      {task : Task} (nextThread : ThreadId) :
      first.state.Uncalled → first.IsFinite →
      (∀ other held, first.process other = some held →
        held.Follows .settling other [] fun _ _ => True) →
      first.Leads (setup.Starts interpreter depth) crowd → crowd.process thread = none →
      crowd.state.spawned = front ++ task :: rest →
      process = ((setup.threadOf interpreter depth thread task).bind fun _ => .done none) →
      Begins setup interpreter depth thread process [.task task .ready]
        (crowd.after thread
          { crowd.state with spawned := front ++ rest, nextThread := nextThread } process)

variable {setup : Setup} {interpreter : Interpreter} {depth : Nat} {thread : ThreadId}
  {process : Work (Option Answer)} {token : Settling.Hand}

/-- A thread that begins is one of an orderly crowd, if it keeps the books from there on. -/
theorem Setup.Begins.orderly (begins : setup.Begins interpreter depth thread process token crowd)
    (sound : setup.program.Sound) (settles : interpreter.Settles)
    (follows : process.Follows .settling thread token fun _ _ => True) :
    crowd.IsFinite ∧ ∃ hands, hands thread = token ∧
      crowd.OrderlyWith .settling [] (fun _ _ _ => True) hands := by
  cases begins with
  | host uncalled finite begun others =>
    refine ⟨finite, fun _ => [], rfl, uncalled.fits, ?_, fun _ _ => rfl⟩
    intro other held begunOther
    by_cases same : other = thread
    · subst same
      rw [begun] at begunOther
      cases begunOther
      exact follows
    · exact others other held same begunOther
  | @started first crowd front rest task nextThread uncalled finite keep leads missing isSpawned _ =>
    have welcoming : Crowd.Welcoming .settling [] (fun _ _ _ => True)
        (setup.Starts interpreter depth : Arrivals ThreadId Machine (Option Answer)) :=
      Setup.starts_welcoming_settling sound settles depth
    have orderly : first.Orderly .settling [] fun _ _ _ => True :=
      ⟨fun _ => [], uncalled.fits, keep, fun _ _ => rfl⟩
    obtain ⟨hands, orderlyWith⟩ := orderly.leads welcoming leads
    obtain ⟨books, agree⟩ := orderlyWith.fits
    have isIdle := orderlyWith.absent thread missing
    obtain ⟨_, taken⟩ := agree.takeSpawned isIdle nextThread isSpawned
    refine ⟨(finite.leads leads).after .., _, ?_, orderlyWith.after ⟨books, taken⟩ follows⟩
    exact Function.update_self ..

/-- Every invocation settles its response once per worker.  Let a thread come to dispatch a unit, and
let it hold the handle that it gets, perhaps with others.  It may run the first workers of its
invocations, join them, give them up and do anything else in between, in any order.  Let all bodies
keep the sizes of their results and leave the contexts of others alone, and let any number of threads
work beside it.  Then there is a task for every worker, and at every later moment the response has at
most one contribution of each of them, and has one of each that has been run or dropped; with the
last one the response is complete, once.  Nothing ever happens to the response but that a task hands
in its contribution: a task that was run has moved its context to its last state before, and a task
that was dropped never started and contributes a fault of the scheduler. -/
theorem invocation_settles_response (sound : setup.program.Sound) (settles : interpreter.Settles)
    (nesting : Nat)
    (opens : (setup.station interpreter thread nesting).Opens token prior follow)
    (begins : setup.Begins interpreter depth thread
      (((setup.station interpreter thread nesting).opening prior).bind
        fun (request, outcome) => follow request outcome) token crowd)
    (passes : Crowd.Passes (setup.Starts interpreter depth) thread
      (fun (request, outcome) => follow request outcome) (request, .ok invocation) middle
      ((setup.station interpreter thread nesting).opening prior) crowd)
    (leads : middle.Leads (setup.Starts interpreter depth) later) :
    ∃ tasks, HandedOut request invocation tasks ∧
      SettledBy later.state invocation.response tasks ∧
      ∀ before mover after, crowd.Leads (setup.Starts interpreter depth) before →
        Crowd.Move (setup.Starts interpreter depth) before mover after →
        after.Leads (setup.Starts interpreter depth) later →
        invocation.response < before.state.responses.size →
        Contributes before.state after.state invocation.response tasks := by
  have runs := Setup.station_settlesTasks sound settles thread nesting
  have isThread := Setup.thread_station setup interpreter thread nesting
  have opened : (((setup.station interpreter thread nesting).opening prior).bind
      fun (request, outcome) => follow request outcome).Follows .settling
        (setup.station interpreter thread nesting).thread token fun _ _ => True :=
    (opens.follows runs).bind fun _ _ reached => reached.1
  rw [isThread] at opened
  obtain ⟨finite, hands, holding, orderly⟩ := begins.orderly sound settles opened
  exact opens.settles runs (Setup.starts_welcoming_settling sound settles depth) finite orderly
    isThread holding passes leads

/-- Bodies that return on the path of the caller and panic everywhere else. -/
def Interpreter.panicsElsewhere : Interpreter := fun _ => do
  let context ← get
  if context.inCaller then return .returned else throw (.panic .other)

theorem Interpreter.panicsElsewhere_settles : panicsElsewhere.Settles := by
  intro station _ _ context token
  have looked : (get : Routine Context).Stays .settling station.thread token context
      (fun found after => found = context ∧ after = context) fun after => after = context :=
    Routine.stays_get ⟨rfl, rfl⟩
  have carriedOut : (panicsElsewhere station).Stays .settling station.thread token context
      (fun _ after => after = context) fun after => after = context := by
    apply looked.bind
    rintro _ _ ⟨rfl, rfl⟩
    split
    · exact Routine.stays_pure rfl
    · exact Routine.stays_throw rfl
  apply Process.Follows.weaken carriedOut.run
  rintro answer last ⟨isToken, isContext⟩
  refine ⟨isToken, ?_⟩
  dsimp only
  rw [isContext]
  exact ⟨rfl, rfl, rfl, rfl⟩

def Station.joinAtOnce (station : Station) (_ : Request) :
    Except Interruption Invocation → Work (Option Unit)
  | .ok invocation => (station.join invocation .empty []).bind fun _ => .done none
  | .error _ => .done none

theorem Station.opens_joinAtOnce {station : Station} {request : Request}
    (sound : request.unit.Sound) : station.Opens [] (.done request) station.joinAtOnce := by
  refine ⟨[], [], rfl, sound, ?_, ?_⟩
  · intro invocation
    have joined : station.Handles [] ([] ++ invocation :: [])
        (station.joinAtOnce request (.ok invocation)) :=
      .joined fun _ => .rest trivial
    exact joined
  · intro interruption
    exact .rest trivial

/-- One thread that dispatches what is requested and joins it at once. -/
def Station.joiningAtOnce (station : Station) (request : Request) (machine : Machine) :
    Crowd ThreadId Machine (Option Unit) :=
  ⟨machine, fun thread =>
    if thread = station.thread then
      some ((station.opening (.done request)).bind
        fun (request, outcome) => station.joinAtOnce request outcome)
    else none⟩

theorem Station.process_joiningAtOnce (station : Station) (request : Request) (machine : Machine) :
    (station.joiningAtOnce request machine).process station.thread =
      some ((station.opening (.done request)).bind
        fun (request, outcome) => station.joinAtOnce request outcome) :=
  if_pos rfl

theorem Station.joiningAtOnce_begins {station : Station} {request : Request} {machine : Machine}
    (uncalled : machine.Uncalled) :
    setup.Begins interpreter depth station.thread
      ((station.opening (.done request)).bind
        fun (request, outcome) => station.joinAtOnce request outcome) []
      (station.joiningAtOnce request machine) := by
  have missing : ∀ other, other ≠ station.thread →
      (station.joiningAtOnce request machine).process other = none :=
    fun other different => if_neg different
  refine .host uncalled ?_ (process_joiningAtOnce station request machine) ?_
  · apply (Set.finite_singleton station.thread).subset
    intro other isThere
    by_contra different
    exact isThere (missing other different)
  · intro other held different begun
    rw [missing other different] at begun
    cases begun

def Settling.Request.ofTwoWorkers : Request where
  unit := ⟨"package", "function", .function, .empty, .empty, ⟨"first", 0, .zero⟩,
    [⟨"second", 1, .zero⟩]⟩
  parent := .root 0 none Machine.ownArena Machine.ownProperties
  source := .empty
  arguments := []
  waits := false

theorem Settling.Request.ofTwoWorkers_sound : Request.ofTwoWorkers.unit.Sound :=
  @Callable.sound_of_build "package" "function" .function [] [] [("first", .zero), ("second", .zero)]
    _ rfl

/-- A host gets the handle of an invocation and joins it at once.  One of the workers returns, and the
other one panics. -/
theorem invocation_settles_response_of_panicking :
    let setup : Setup := ⟨default, .rehearsed .fifo, .full⟩
    ∃ invocation tasks, ∃ middle later : Crowd ThreadId Machine (Option Unit),
      HandedOut .ofTwoWorkers invocation tasks ∧ SettledBy later.state invocation.response tasks ∧
        middle.Leads (setup.Starts .panicsElsewhere 3) later ∧
        (middle.state.response invocation.response).contributors = [] ∧
        (later.state.response invocation.response).completions = 1 := by
  intro setup
  let station := setup.station .panicsElsewhere 0 3
  have ran : ∃ invocation state, (station.opening (.done .ofTwoWorkers)).runAlone
      (Machine.start default .empty) = some ((.ofTwoWorkers, .ok invocation), state) ∧
        (state.response invocation.response).contributors = [] ∧
        ∃ last, (station.joinAtOnce .ofTwoWorkers (.ok invocation)).runAlone state =
            some (none, last) ∧ (last.response invocation.response).completions = 1 :=
    ⟨_, _, rfl, rfl, _, rfl, rfl⟩
  obtain ⟨invocation, state, opened, isNew, last, joined, completed⟩ := ran
  have begins : setup.Begins .panicsElsewhere 3 station.thread
      ((station.opening (.done .ofTwoWorkers)).bind
        fun (request, outcome) => station.joinAtOnce request outcome) []
      (station.joiningAtOnce .ofTwoWorkers (Machine.start default .empty)) :=
    Station.joiningAtOnce_begins (Machine.start_uncalled default .empty)
  have begun := station.process_joiningAtOnce .ofTwoWorkers (Machine.start default .empty)
  obtain ⟨middle, passes, rfl⟩ := Crowd.exists_passes_of_runAlone begun opened
  have goesOn : middle.process station.thread =
      some ((station.joinAtOnce .ofTwoWorkers (.ok invocation)).bind .done) := by
    rw [Process.bind_done]
    exact passes.reached
  obtain ⟨later, passesOn, rfl⟩ := Crowd.exists_passes_of_runAlone goesOn joined
  have sound : setup.program.Sound := by
    intro name package isPackage
    cases isPackage
  obtain ⟨tasks, handedOut, settled, _⟩ := invocation_settles_response sound
    Interpreter.panicsElsewhere_settles 3
    (Station.opens_joinAtOnce Request.ofTwoWorkers_sound) begins passes passesOn.leads
  exact ⟨invocation, tasks, middle, later, handedOut, settled, passesOn.leads, isNew, completed⟩

end WorkerMachine
