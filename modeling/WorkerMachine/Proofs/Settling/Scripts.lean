import WorkerMachine.Proofs.Settling.Inits
/-!
# Scripts and the books

An instruction works on the registers of its own context, stores in global memory, or calls a function.
None of this moves the context of a worker, so a script leaves the hand of its thread as it is.
-/

namespace WorkerMachine

open Settling

variable {Answer First : Type} {thread : ThreadId} {token : Settling.Hand} {home : Context}
  {station : Station}

/-! ## What is left of a context -/

/-- On what is left of a context, a routine keeps the books, leaves the hand as it is, and leaves the
context the same. -/
def Routine.Leaves (thread : ThreadId) (token : Settling.Hand) (home : Context)
    (routine : Routine Answer) : Prop :=
  ∀ context, home.LeftAs context →
    routine.Stays .settling thread token context (fun _ => home.LeftAs) home.LeftAs

namespace Routine

theorem leaves_pure (answer : Answer) :
    (pure answer : Routine Answer).Leaves thread token home :=
  fun _ left => stays_pure left

theorem leaves_throw (interruption : Interruption) :
    (throw interruption : Routine Answer).Leaves thread token home :=
  fun _ left => stays_throw left

theorem Leaves.bind {routine : Routine First} {follow : First → Routine Answer}
    (first : routine.Leaves thread token home)
    (second : ∀ answer, (follow answer).Leaves thread token home) :
    (routine >>= follow).Leaves thread token home :=
  fun context left => (first context left).bind second

theorem leaves_get_bind {follow : Context → Routine Answer}
    (second : ∀ context, home.LeftAs context → (follow context).Leaves thread token home) :
    ((get : Routine Context) >>= follow).Leaves thread token home := by
  intro context left
  have looked : (get : Routine Context).Stays .settling thread token context
      (fun before after => context = before ∧ context = after) home.LeftAs :=
    stays_get ⟨rfl, rfl⟩
  apply looked.bind
  rintro _ _ ⟨rfl, rfl⟩
  exact second context left context left

theorem leaves_set {after : Context} (left : home.LeftAs after) :
    (set after : Routine PUnit).Leaves thread token home :=
  fun _ _ => stays_set left

theorem leaves_effect {effect : Effect Answer}
    (stays : effect.Stays .settling thread token fun _ => True) :
    (liftM effect : Routine Answer).Leaves thread token home :=
  fun _ left => stays_effect (stays.weaken fun _ _ => left) left

theorem leaves_access_bind {outcome : Except Overrun First} {follow : First → Routine Answer}
    (second : ∀ answer, outcome = .ok answer → (follow answer).Leaves thread token home) :
    ((liftM (Effect.ofAccess outcome) : Routine First) >>= follow).Leaves thread token home := by
  intro context left
  have accessed : (liftM (Effect.ofAccess outcome) : Routine First).Stays .settling thread token
      context (fun answer after => outcome = .ok answer ∧ home.LeftAs after) home.LeftAs :=
    stays_effect (Effect.stays_ofAccess fun _ isOk => ⟨isOk, left⟩) left
  exact accessed.bind fun answer after reached => second answer reached.1 after reached.2

theorem leaves_except_bind {outcome : Except Fault First} {follow : First → Routine Answer}
    (second : ∀ answer, outcome = .ok answer → (follow answer).Leaves thread token home) :
    ((liftM (Effect.ofExcept outcome) : Routine First) >>= follow).Leaves thread token home := by
  intro context left
  have tried : (liftM (Effect.ofExcept outcome) : Routine First).Stays .settling thread token
      context (fun answer after => outcome = .ok answer ∧ home.LeftAs after) home.LeftAs :=
    stays_effect (Effect.stays_ofExcept fun _ isOk => ⟨isOk, left⟩) left
  exact tried.bind fun answer after reached => second answer reached.1 after reached.2

end Routine

namespace Script

open Routine

theorem loadLocal_leaves (bank : Bank) (index : Nat) :
    (loadLocal bank index).Leaves thread token home :=
  leaves_get_bind fun _ _ => leaves_effect (Effect.stays_ofAccess fun _ _ => trivial)

theorem storeLocal_leaves (bank : Bank) (index : Nat) (value : Value) :
    (storeLocal bank index value).Leaves thread token home := by
  apply leaves_get_bind
  intro context left
  apply leaves_access_bind
  intro locals _
  exact leaves_set ⟨left.id, left.arena, left.activity, left.sized⟩

theorem storeResult_leaves (bank : Bank) (index : Nat) (value : Value) :
    (storeResult bank index value).Leaves thread token home := by
  apply leaves_get_bind
  intro context left
  apply leaves_access_bind
  intro results stored
  exact leaves_set ⟨left.id, left.arena, left.activity,
    (RegisterFile.sizes_of_storeOrKeep stored).trans left.sized⟩

theorem storeGlobal_settles (slot : Slot) (value : Value) :
    (storeGlobal slot value).Stays .settling thread token fun _ => True := by
  apply storeGlobal_stays
  intro machine hands globals fits _ _
  obtain ⟨books, agree⟩ := fits
  have quiet : Quiet none machine { machine with globals := globals } :=
    quiet_of_same rfl rfl rfl rfl
  exact ⟨quiet.proceeds, ⟨books, agree.calm quiet⟩⟩

variable (tasks : station.SettlesTasks) (sound : station.program.Sound)

include tasks sound

theorem callFunction_leaves (package function : String) (arguments returns : List Nat) :
    (callFunction station package function arguments returns).Leaves station.thread token home := by
  unfold callFunction
  apply leaves_except_bind
  intro found isFound
  apply leaves_except_bind
  intro unit isUnit
  have packageSound := (sound package found isFound).2
  have unitSound := (packageSound.of_function isUnit).2
  have called : (station.callRegisters unit arguments returns).Leaves station.thread token home := by
    intro context left
    apply (Station.callRegisters_stays_settling tasks unitSound context arguments returns).weaken
    · intro _ after leftAfter
      exact left.trans leftAfter
    · intro after leftAfter
      exact left.trans leftAfter
  have proceeds : (do
      station.ensureInitialized found (← get)
      station.callRegisters unit arguments returns : Routine Unit).Leaves station.thread token
        home := by
    apply leaves_get_bind
    intro caller _
    apply Leaves.bind (leaves_effect (Station.ensureInitialized_settles tasks packageSound caller))
    intro _
    exact called
  split
  · exact (leaves_throw _).bind fun _ => proceeds
  · exact proceeds

theorem carryOut_leaves (instruction : Instruction) :
    (carryOut station instruction).Leaves station.thread token home := by
  unfold carryOut
  cases instruction with
  | constant target literal =>
    exact (storeLocal_leaves _ _ _).bind fun _ => leaves_pure _
  | add bank target left right =>
    dsimp only
    split
    · apply (loadLocal_leaves _ _).bind
      intro first
      apply (loadLocal_leaves _ _).bind
      intro second
      split
      · exact (storeLocal_leaves _ _ _).bind fun _ => leaves_pure _
      · exact leaves_pure _
    · exact leaves_throw _
  | concat target left right =>
    apply (loadLocal_leaves _ _).bind
    intro first
    apply (loadLocal_leaves _ _).bind
    intro second
    split
    · exact (storeLocal_leaves _ _ _).bind fun _ => leaves_pure _
    · exact leaves_pure _
  | move bank target source =>
    apply (loadLocal_leaves _ _).bind
    intro value
    exact (storeLocal_leaves _ _ _).bind fun _ => leaves_pure _
  | storeReturn bank source slot =>
    apply (loadLocal_leaves _ _).bind
    intro value
    exact (storeResult_leaves _ _ _).bind fun _ => leaves_pure _
  | finish => exact leaves_pure _
  | raise message =>
    intro context left
    exact ⟨rfl, left.id, left.arena, left.activity, left.sized⟩
  | storeGlobal bank source slot =>
    apply (loadLocal_leaves _ _).bind
    intro value
    exact (leaves_effect (storeGlobal_settles _ value)).bind fun _ => leaves_pure _
  | loadGlobal bank target slot =>
    apply (leaves_effect (Effect.stays_read fun _ _ _ _ => trivial)).bind
    intro loaded
    apply leaves_access_bind
    intro value _
    exact (storeLocal_leaves _ _ _).bind fun _ => leaves_pure _
  | call package function arguments returns =>
    exact (callFunction_leaves tasks sound _ _ _ _).bind fun _ => leaves_pure _
  | sleep milliseconds =>
    exact (leaves_effect (Effect.stays_pause milliseconds trivial)).bind fun _ => leaves_pure _

theorem carryOutAll_leaves (instructions : List Instruction) :
    (carryOutAll station instructions).Leaves station.thread token home := by
  induction instructions with
  | nil => exact leaves_pure _
  | cons instruction rest inductionHypothesis =>
    unfold carryOutAll
    apply (carryOut_leaves tasks sound instruction).bind
    intro continuation
    cases continuation with
    | next => exact inductionHypothesis
    | stop exit => exact leaves_pure _

omit tasks sound in
theorem interpreter_settles (bodies : Table BodyKey (List Instruction)) :
    (interpreter bodies).Settles := by
  intro station tasks sound context token
  have carried : (interpreter bodies station).Leaves station.thread token context := by
    apply leaves_get_bind
    intro caller _
    split
    · exact leaves_pure _
    · split
      · exact leaves_throw _
      · exact carryOutAll_leaves tasks sound _
  exact (carried context ⟨rfl, rfl, rfl, rfl⟩).run

end Script

end WorkerMachine
