import WorkerMachine.Proofs.Settling.Joins
/-!
# Handles

A thread may hold the handles of several invocations at a time.  It dispatches further ones, runs
their first workers, joins them or gives them up, in any order, and does other work in between.
-/

namespace WorkerMachine

open Settling

variable {Answer : Type} {thread : ThreadId} {token sorted : Settling.Hand} {station : Station}

/-- A thread may sort its hand before it goes on. -/
theorem Settling.follows_of_perm {process : Work Answer}
    (follows : process.Follows .settling thread token fun _ _ => True) (perm : token.Perm sorted) :
    process.Follows .settling thread sorted fun _ _ => True := by
  induction process with
  | done answer => exact trivial
  | step ready update next _ =>
    intro machine hands fits holding
    obtain ⟨books, agree⟩ := fits
    have resorted : Discipline.settling.fits machine (Function.update hands thread token) :=
      ⟨books, agree.reorder (holding ▸ perm)⟩
    obtain ⟨taken, _⟩ := follows machine _ resorted (Function.update_self ..)
    refine ⟨fun isReady => ?_, fun _ => trivial⟩
    obtain ⟨permitted, exchanged, fitsAfter, rest⟩ := taken isReady
    rw [Function.update_idem] at fitsAfter
    exact ⟨permitted, exchanged, fitsAfter, rest⟩
  | sleep milliseconds next inductionHypothesis => exact inductionHypothesis follows

abbrev Settling.Handle := Invocation × Docket

def Settling.Handle.hand (handle : Handle) : Settling.Hand :=
  handle.1.kept ++ [.call handle.1.response handle.2 none]

/-- The station dispatches a unit below a parent, whether the parent is to wait or not. -/
structure Settling.Request where
  unit : Callable
  parent : Context
  source : RegisterFile
  arguments : List Nat
  waits : Bool

def Station.begin (station : Station) (request : Request) :
    Work (Except Interruption Invocation) :=
  (station.dispatch request.unit request.parent request.source request.arguments request.waits).run

/-- What a process does with the handles that it holds, until it holds none any more.  From then on it
goes on with what was in hand before the first of them. -/
inductive Station.Handles (station : Station) (token : Settling.Hand) {Answer : Type} :
    List Invocation → Work Answer → Prop
  | rest {process : Work Answer} :
      process.Follows .settling station.thread token (fun _ _ => True) →
      Handles station token [] process
  | dispatched {handles : List Invocation} {request : Request}
      {follow : Except Interruption Invocation → Work Answer} :
      request.unit.Sound →
      (∀ invocation, Handles station token (invocation :: handles) (follow (.ok invocation))) →
      (∀ interruption, Handles station token handles (follow (.error interruption))) →
      Handles station token handles ((station.begin request).bind follow)
  | ranFirst {before after : List Invocation} {invocation : Invocation}
      {follow : Except Interruption (Option ContextState) → Work Answer} :
      (∀ outcome, Handles station token ({ invocation with callerTask := none } :: (before ++ after))
        (follow outcome)) →
      Handles station token (before ++ invocation :: after)
        ((station.runFirst invocation).run.bind follow)
  | joined {before after : List Invocation} {invocation : Invocation} {target : RegisterFile}
      {indices : List Nat} {follow : Except Interruption Unit × RegisterFile → Work Answer} :
      (∀ answer, Handles station token (before ++ after) (follow answer)) →
      Handles station token (before ++ invocation :: after)
        ((station.join invocation target indices).bind follow)
  | abandoned {before after : List Invocation} {invocation : Invocation}
      {follow : Unit → Work Answer} :
      Handles station token (before ++ after) (follow ()) →
      Handles station token (before ++ invocation :: after) (invocation.abandon.bind follow)
  | meanwhile {First : Type} {handles : List Invocation} {work : Work First} {goal : First → Prop}
      {follow : First → Work Answer} :
      work.Settles station.thread goal →
      (∀ answer, goal answer → Handles station token handles (follow answer)) →
      Handles station token handles (work.bind follow)

/-- A thread may take up any of its handles first. -/
theorem Settling.perm_hand_of_append (before after : List Handle) (handle : Handle) :
    (handle.hand ++ ((before ++ after).flatMap Handle.hand ++ token)).Perm
      ((before ++ handle :: after).flatMap Handle.hand ++ token) := by
  rw [← List.append_assoc]
  apply List.Perm.append_right
  have taken : (handle :: (before ++ after)).Perm (before ++ handle :: after) :=
    List.perm_middle.symm
  exact taken.flatMap_right Handle.hand

/-- A process uses the handle that it gets for a request, while it holds other handles. -/
structure Station.Uses (station : Station) (token : Settling.Hand) (handles : List Invocation)
    (request : Request) (follow : Except Interruption Invocation → Work Answer) : Prop where
  sound : request.unit.Sound
  gotten : ∀ invocation, station.Handles token (invocation :: handles) (follow (.ok invocation))
  refused : ∀ interruption, station.Handles token handles (follow (.error interruption))

/-- A process comes to a request, perhaps with handles in hand, and uses the handle that it gets. -/
def Station.Opens (station : Station) (token : Settling.Hand) (prior : Work Request)
    (follow : Request → Except Interruption Invocation → Work Answer) : Prop :=
  prior.Follows .settling station.thread token fun request last =>
    ∃ (handles : List Handle) (rest : Settling.Hand), last = handles.flatMap Handle.hand ++ rest ∧
      station.Uses rest (handles.map Prod.fst) request (follow request)

/-- Come to a request and dispatch what is requested. -/
def Station.opening (station : Station) (prior : Work Request) :
    Work (Request × Except Interruption Invocation) :=
  prior.bind fun request => (station.begin request).bind fun outcome => .done (request, outcome)

namespace Station

variable (tasks : station.SettlesTasks)

include tasks

theorem begin_settles {request : Request} (sound : request.unit.Sound) :
    (station.begin request).Follows .settling station.thread token fun outcome last =>
      match outcome with
      | .ok invocation => ∃ made task response,
        Docket.Whole ⟨request.unit, request.parent, request.source, request.arguments,
          request.waits, made, false⟩ ∧
        (task ∈ made ∧ task.part = (request.unit.callerWorker, true)) ∧
        invocation = ⟨request.unit, request.parent.id, response, some task⟩ ∧
        last = .task task .ready :: .call response ⟨request.unit, request.parent, request.source,
          request.arguments, request.waits, made, false⟩ none :: token
      | .error _ => last = token := by
  have dispatched := @dispatch_settles token station tasks request.unit sound request.parent
    request.source request.arguments request.waits
  apply Process.Follows.weaken dispatched
  intro outcome last reached
  cases outcome with
  | ok invocation => exact reached
  | error interruption => exact reached.2

theorem Handles.follows {handles : List Handle} {process : Work Answer}
    (holds : station.Handles token (handles.map Prod.fst) process) :
    process.Follows .settling station.thread (handles.flatMap Handle.hand ++ token)
      fun _ _ => True := by
  generalize isHandles : handles.map Prod.fst = invocations at holds
  induction holds generalizing handles with
  | rest follows =>
    rw [List.map_eq_nil_iff] at isHandles
    subst isHandles
    exact follows
  | dispatched sound _ _ succeeded failed =>
    apply Process.Follows.bind (begin_settles tasks sound)
    intro outcome last reached
    cases outcome with
    | ok invocation =>
      obtain ⟨made, task, response, _, _, rfl, rfl⟩ := reached
      exact @succeeded _ ((_, _) :: handles) (congrArg _ isHandles)
    | error interruption =>
      rw [show last = _ from reached]
      exact failed interruption isHandles
  | ranFirst _ inductionHypothesis =>
    obtain ⟨before, _, rfl, rfl, isRest⟩ := List.map_eq_append_iff.mp isHandles
    obtain ⟨handle, after, rfl, rfl, rfl⟩ := List.map_eq_cons_iff.mp isRest
    apply follows_of_perm _ (perm_hand_of_append before after handle)
    rw [Handle.hand, List.append_assoc]
    let left : Handle := ({ handle.1 with callerTask := none }, handle.2)
    have ran : (station.runFirst handle.1).Follows .settling station.thread
        (handle.1.kept ++ (left.hand ++ ((before ++ after).flatMap Handle.hand ++ token)))
        (fun _ last => last = (left :: (before ++ after)).flatMap Handle.hand ++ token)
        fun _ last => last = (left :: (before ++ after)).flatMap Handle.hand ++ token := by
      rw [List.flatMap_cons, List.append_assoc]
      exact runFirst_settles tasks
    apply Process.Follows.bind ran
    intro outcome last reached
    have isLast : last = (left :: (before ++ after)).flatMap Handle.hand ++ token := by
      cases outcome with
      | ok _ => exact reached
      | error _ => exact reached
    rw [isLast]
    apply inductionHypothesis outcome
    rw [List.map_cons, List.map_append]
  | @joined _ _ _ target indices _ _ inductionHypothesis =>
    obtain ⟨before, _, rfl, rfl, isRest⟩ := List.map_eq_append_iff.mp isHandles
    obtain ⟨handle, after, rfl, rfl, rfl⟩ := List.map_eq_cons_iff.mp isRest
    apply follows_of_perm _ (perm_hand_of_append before after handle)
    rw [Handle.hand, List.append_assoc]
    apply Process.Follows.bind (join_settles tasks false rfl target indices)
    intro answer last ends
    have isLast : last = (before ++ after).flatMap Handle.hand ++ token := by
      cases ends with
      | refused => rfl
      | closed => rfl
    rw [isLast]
    apply inductionHypothesis answer
    rw [List.map_append]
  | abandoned _ inductionHypothesis =>
    obtain ⟨before, _, rfl, rfl, isRest⟩ := List.map_eq_append_iff.mp isHandles
    obtain ⟨handle, after, rfl, rfl, rfl⟩ := List.map_eq_cons_iff.mp isRest
    apply follows_of_perm _ (perm_hand_of_append before after handle)
    rw [Handle.hand, List.append_assoc]
    apply Process.Follows.bind (Invocation.abandon_settles false)
    rintro _ _ rfl
    apply inductionHypothesis
    rw [List.map_append]
  | meanwhile settles _ inductionHypothesis =>
    apply Process.Follows.bind (settles _)
    rintro answer _ ⟨rfl, reached⟩
    exact inductionHypothesis answer reached isHandles

end Station

end WorkerMachine
