import WorkerMachine.Proofs.Invocation.Marks
import WorkerMachine.Proofs.Settling.Calls
/-!
# Joining and giving up

Whoever has the handle of a call joins the call or gives it up.  A task that is kept with the handle is
run or dropped on the way.  The call may stay in hand afterwards, for the books about it to be looked
at, or be forgotten.
-/

namespace WorkerMachine

open Settling

/-- What a call answers with whose response is complete. -/
def Response.conclude (response : Response) (target : RegisterFile) (indices : List Nat) :
    Except Interruption Unit × RegisterFile :=
  match response.outcome with
  | .values =>
    match response.deliverInto target indices with
    | (delivered, .ok ()) => (.ok (), delivered)
    | (delivered, .error overrun) => (.error overrun.interruption, delivered)
  | .error error => (.error (.fault (.propagated error)), target)
  | .fault fault => (.error (.fault fault), target)

def Invocation.kept (invocation : Invocation) : Settling.Hand :=
  invocation.callerTask.toList.map (.task · .ready)

/-- How the joining of a call ends.  It is refused if the parent is in a state that cannot be left for
waiting; otherwise it answers what the closed account of the call tells. -/
inductive Settling.Ends (keep : Bool) (parent : ContextId) (response : ResponseId) (docket : Docket)
    (rest : Settling.Hand) (target : RegisterFile) (indices : List Nat) :
    Except Interruption Unit × RegisterFile → Settling.Hand → Prop
  | refused {fault : Fault} :
      ¬KnowsActive (Machine.ownArena, parent) rest →
      Ends keep parent response docket rest target indices (.error (.fault fault), target)
        (leftOf keep response docket none rest)
  | closed (account : Account) :
      Ends keep parent response docket rest target indices
        ((account.response docket.unit.returns docket.waits 1).conclude target indices)
        (leftOf keep response docket (some account) rest)

variable {thread : ThreadId} {token rest : Settling.Hand} {task : Task} {docket : Docket}
  {response : ResponseId} {station : Station} {upset : Interruption → Settling.Hand → Prop}
  {keep : Bool} {invocation : Invocation} {account : Account} {closed : Option Account}

/-! ## The end of a call -/

/-- A handle is given up, and the task that is kept with it is dropped. -/
theorem Invocation.abandon_settles (keep : Bool) :
    invocation.abandon.Follows .settling thread
      (invocation.kept ++ .call response docket closed :: rest)
      fun _ last => last = leftOf keep response docket closed rest := by
  unfold abandon
  apply Process.Follows.bind (resumeParent_leaves keep invocation.parent)
  rintro _ _ rfl
  unfold kept
  cases invocation.callerTask with
  | none => exact rfl
  | some task => exact dispose_settles

/-- What the outcome of a closed account comes to is read from its response. -/
theorem Station.deliver_settles (target : RegisterFile) (indices : List Nat)
    (isResponse : invocation.response = response) :
    (Station.deliver invocation (account.response docket.unit.returns docket.waits 1).outcome target
      indices).Stays .settling thread (.call response docket (some account) :: rest)
      fun answer =>
        answer = (account.response docket.unit.returns docket.waits 1).conclude target indices := by
  unfold Station.deliver Response.conclude
  cases (account.response docket.unit.returns docket.waits 1).outcome with
  | values =>
    have delivered : (Process.read fun machine : Machine =>
          (machine.response invocation.response).deliverInto target indices).Stays .settling thread
        (.call response docket (some account) :: rest) fun answer => answer =
          (account.response docket.unit.returns docket.waits 1).deliverInto target indices := by
      apply Process.stays_read
      intro machine hands fits holding
      obtain ⟨books, agree⟩ := fits
      have member : .call response docket (some account) ∈ hands thread := by
        rw [holding]
        exact List.mem_cons_self
      rw [isResponse, agree.answered member]
    apply delivered.bind
    rintro ⟨file, copied⟩ isDelivered
    dsimp only
    rw [← isDelivered]
    cases copied with
    | ok _ => exact Process.stays_done rfl
    | error overrun => exact Process.stays_done rfl
  | error error => exact Process.stays_done rfl
  | fault fault => exact Process.stays_done rfl

namespace Station

variable (tasks : station.SettlesTasks)

include tasks

theorem runFirst_settles :
    (station.runFirst invocation).Follows .settling station.thread (invocation.kept ++ rest)
      (fun _ last => last = rest) upset := by
  unfold runFirst Invocation.kept
  cases invocation.callerTask with
  | none => exact rfl
  | some task =>
    apply Effect.Follows.bind (tally_settles _)
    rintro _ _ rfl
    unfold runInCaller
    apply Effect.Follows.bind (Effect.Follows.bind (tasks task rest).of_never _) fun _ _ => id
    rintro state _ rfl
    split
    · refine Effect.Follows.bind
        (Effect.calm_modify_follows fun _ => quiet_of_same rfl rfl rfl rfl) ?_
      rintro _ _ rfl
      rfl
    · rfl
    · rfl

theorem settle_settles (isResponse : invocation.response = response) :
    (station.settle invocation).Follows .settling station.thread
      (invocation.kept ++ .call response docket none :: rest)
      (fun outcome last => ∃ account,
        outcome = (account.response docket.unit.returns docket.waits 1).outcome ∧
          last = .call response docket (some account) :: rest) upset := by
  unfold settle
  rw [isResponse]
  apply Effect.Follows.bind (runFirst_settles tasks)
  rintro _ _ rfl
  apply Effect.Follows.bind (park_settles tasks)
  rintro _ _ ⟨account, rfl⟩
  apply Effect.Follows.bind (Effect.follows_work (resumeParent_settles invocation.parent))
  rintro _ _ ⟨rfl, _⟩
  apply Effect.follows_read
  intro machine hands fits holding
  obtain ⟨books, agree⟩ := fits
  have member : .call response docket (some account) ∈ hands station.thread := by
    rw [holding]
    exact List.mem_cons_self
  exact ⟨account, congrArg Response.outcome (agree.answered member), rfl⟩

/-- What is left of joining a call once its parent has been marked. -/
theorem joinMarked_settles (keep : Bool) (isResponse : invocation.response = response)
    (target : RegisterFile) (indices : List Nat) :
    (((station.settle invocation).run.bind fun
      | .ok outcome => deliver invocation outcome target indices
      | .error interruption => .done (.error interruption, target)).bind fun answer =>
        (Invocation.abandon { invocation with callerTask := none }).bind fun _ =>
          .done answer).Follows .settling station.thread
      (invocation.kept ++ .call response docket none :: rest)
      fun answer last => ∃ account, answer =
          (account.response docket.unit.returns docket.waits 1).conclude target indices ∧
        last = leftOf keep response docket (some account) rest := by
  have settled : (station.settle invocation).Follows .settling station.thread
      (invocation.kept ++ .call response docket none :: rest)
      (fun outcome last => ∃ account,
        outcome = (account.response docket.unit.returns docket.waits 1).outcome ∧
          last = .call response docket (some account) :: rest) fun _ _ => False :=
    settle_settles tasks isResponse
  have delivered : ((station.settle invocation).run.bind fun
        | .ok outcome => deliver invocation outcome target indices
        | .error interruption => .done (.error interruption, target)).Follows .settling
      station.thread (invocation.kept ++ .call response docket none :: rest)
      fun answer last => ∃ account, answer =
          (account.response docket.unit.returns docket.waits 1).conclude target indices ∧
        last = .call response docket (some account) :: rest := by
    apply Process.Follows.bind settled
    rintro outcome _ reached
    cases outcome with
    | error interruption => exact reached.elim
    | ok outcome =>
      obtain ⟨account, rfl, rfl⟩ := reached
      exact Process.Follows.weaken (deliver_settles target indices isResponse)
        fun answer last reached => ⟨account, reached.2, reached.1⟩
  apply Process.Follows.bind delivered
  rintro _ _ ⟨account, rfl, rfl⟩
  have given : (Invocation.abandon { invocation with callerTask := none }).Follows .settling
      station.thread (.call response docket (some account) :: rest)
      fun _ last => last = leftOf keep response docket (some account) rest :=
    Invocation.abandon_settles keep
  apply Process.Follows.bind given
  rintro _ _ rfl
  exact ⟨account, rfl, rfl⟩

theorem join_settles (keep : Bool) (isResponse : invocation.response = response)
    (target : RegisterFile) (indices : List Nat) :
    (station.join invocation target indices).Follows .settling station.thread
      (invocation.kept ++ .call response docket none :: rest)
      (Ends keep invocation.parent response docket rest target indices) := by
  rw [join_eq]
  apply Process.Follows.bind (suspend_settles invocation.parent)
  rintro _ _ ⟨rfl, rfl | ⟨fault, rfl, unknown⟩⟩
  · apply Process.Follows.weaken (joinMarked_settles tasks keep isResponse target indices)
    rintro _ _ ⟨account, rfl, rfl⟩
    exact .closed account
  · apply Process.Follows.bind (Invocation.abandon_settles keep)
    rintro _ _ rfl
    apply Ends.refused
    rintro ⟨item, member, tells⟩
    exact unknown ⟨item, List.mem_append_right _ (List.mem_cons_of_mem _ member), tells⟩

end Station

end WorkerMachine
