import WorkerMachine.Proofs.Clearance.Inits
import WorkerMachine.Script.Interpreter
/-!
# Scripts and clearance

Between two of its instructions a script is not about anything that its context would have to be
cleared for.  A call of a script passes the gate of the package first, so that its context is cleared
when it calls the unit.
-/

namespace WorkerMachine

open Clearance

/-- All packages of a program go by their names, and their units have been built. -/
def Program.Sound (program : Program) : Prop :=
  ∀ name found, program.package name = .ok found → found.name = name ∧ found.Sound

theorem Package.Sound.of_function {package : Package} (sound : package.Sound)
    {packageName name : String} {unit : Callable}
    (found : Program.function package packageName name = .ok unit) :
    unit.package = package.name ∧ unit.Sound := by
  unfold Program.function at found
  split at found
  · next isFunction =>
    cases found
    exact sound unit (.inr ⟨name, isFunction⟩)
  · cases found

/-- A thread has an activity in hand that is about nothing that children of its context matter for.
-/
def Clearance.Activity.Idle (activity : Activity) (context : ContextId) (rest hand : Hand) : Prop :=
  ∃ pursuit, ¬pursuit.IsBusy ∧ hand = (context, activity.being .running pursuit) :: rest

theorem Process.Follows.of_exchanged {Answer : Type} {thread : ThreadId} {token other : Hand}
    {process : Work Answer} {goal : Answer → Hand → Prop}
    (isStep : ∃ ready update next, process = .step ready update next)
    (exchanged : ∀ machine, Exchanges machine machine thread token other)
    (follows : process.Follows .clearing thread other goal) :
    process.Follows .clearing thread token goal := by
  obtain ⟨ready, update, next, rfl⟩ := isStep
  intro machine hands fits holding
  refine ⟨fun isReady => ?_, fun _ => trivial⟩
  obtain ⟨taken, _⟩ := follows machine _ (exchanged machine hands fits holding)
    (Function.update_self ..)
  obtain ⟨permitted, after, fitsAfter, goesOn⟩ := taken isReady
  rw [Function.update_idem] at fitsAfter
  exact ⟨permitted, after, fitsAfter, goesOn⟩

/-- A context that is between calls may forget what it was cleared for. -/
theorem Clearance.exchanges_idle {machine : Machine} {thread : ThreadId} {context : ContextId}
    {activity : Activity} {state : ContextState} {pursuit : Pursuit} {rest : Hand}
    (mayClaim : activity.role.MayClaim) (idle : ¬pursuit.IsBusy) :
    Exchanges machine machine thread ((context, activity.being state pursuit) :: rest)
      ((context, activity.being state .nothing) :: rest) :=
  exchanges_head rfl id fun _ known =>
    known.1.pursue (known.2 _ List.mem_cons_self) mayClaim.1 idle id
      (fun package ofInit => absurd ofInit (mayClaim.2 package)) trivial

theorem Context.LeftAs.trans {first second third : Context} (left : first.LeftAs second)
    (leftAgain : second.LeftAs third) : first.LeftAs third :=
  ⟨leftAgain.id.trans left.id, leftAgain.arena.trans left.arena,
    leftAgain.activity.trans left.activity, leftAgain.sized.trans left.sized⟩

/-- A routine that is begun between calls ends between calls, and leaves its context as it has to. -/
def Routine.Rests {Answer : Type} (thread : ThreadId) (home : Context) (activity : Activity)
    (rest : Hand) (routine : Routine Answer) : Prop :=
  ∀ context hand, home.LeftAs context → activity.Idle home.id rest hand →
    routine.Follows .clearing thread context hand
      (fun _ after last => home.LeftAs after ∧ activity.Idle home.id rest last)
      fun _ after last => home.LeftAs after ∧ activity.Idle home.id rest last

namespace Routine

variable {Answer First Second : Type} {thread : ThreadId} {home : Context} {activity : Activity}
  {rest : Hand}

theorem rests_pure (answer : Answer) :
    (pure answer : Routine Answer).Rests thread home activity rest :=
  fun _ _ left idle => follows_pure ⟨left, idle⟩

theorem rests_throw (interruption : Interruption) :
    (throw interruption : Routine Answer).Rests thread home activity rest :=
  fun _ _ left idle => follows_throw ⟨left, idle⟩

theorem Rests.bind {routine : Routine First} {follow : First → Routine Second}
    (first : routine.Rests thread home activity rest)
    (second : ∀ answer, (follow answer).Rests thread home activity rest) :
    (routine >>= follow).Rests thread home activity rest :=
  fun context hand left idle => (first context hand left idle).bind
    fun answer after middle reached => second answer after middle reached.1 reached.2

theorem rests_get_bind {follow : Context → Routine Answer}
    (second : ∀ context, home.LeftAs context →
      (follow context).Rests thread home activity rest) :
    (get >>= follow).Rests thread home activity rest := by
  intro context hand left idle
  have looked : (get : Routine Context).Follows .clearing thread context hand
      (fun before after last => home.LeftAs before ∧ home.LeftAs after ∧
        activity.Idle home.id rest last)
      fun _ after last => home.LeftAs after ∧ activity.Idle home.id rest last :=
    Routine.follows_get ⟨left, left, idle⟩
  exact looked.bind fun before after middle reached =>
    second before reached.1 after middle reached.2.1 reached.2.2

theorem rests_set {after : Context} (left : home.LeftAs after) :
    (set after : Routine PUnit).Rests thread home activity rest :=
  fun _ _ _ idle => follows_set ⟨left, idle⟩

theorem rests_modify {change : Context → Context}
    (keeps : ∀ context, home.LeftAs context → home.LeftAs (change context)) :
    (modify change : Routine PUnit).Rests thread home activity rest :=
  fun context _ left idle => follows_modify ⟨keeps context left, idle⟩

theorem rests_effect {effect : Effect Answer}
    (stays : ∀ hand, effect.Stays .clearing thread hand fun _ => True) :
    (liftM effect : Routine Answer).Rests thread home activity rest := by
  intro context hand left idle
  refine follows_effect (Effect.Follows.weaken (stays hand) ?_ ?_)
  · rintro _ _ ⟨rfl, _⟩
    exact ⟨left, idle⟩
  · rintro _ _ rfl
    exact ⟨left, idle⟩

/-- An access to registers, of which only an answer is gone on with. -/
theorem rests_access_bind {outcome : Except Overrun First} {follow : First → Routine Answer}
    (second : ∀ answer, outcome = .ok answer → (follow answer).Rests thread home activity rest) :
    ((liftM (Effect.ofAccess outcome) : Routine First) >>= follow).Rests thread home activity
      rest := by
  intro context hand left idle
  have accessed : (liftM (Effect.ofAccess outcome) : Routine First).Follows .clearing thread context
      hand (fun answer after last => outcome = .ok answer ∧ home.LeftAs after ∧
        activity.Idle home.id rest last)
      fun _ after last => home.LeftAs after ∧ activity.Idle home.id rest last :=
    follows_effect (Effect.follows_ofAccess (fun answer isOk => ⟨isOk, left, idle⟩)
      fun _ _ => ⟨left, idle⟩)
  exact accessed.bind fun answer after middle reached =>
    second answer reached.1 after middle reached.2.1 reached.2.2

/-- Something that may fail, of which only an answer is gone on with. -/
theorem rests_except_bind {outcome : Except Fault First} {follow : First → Routine Answer}
    (second : ∀ answer, outcome = .ok answer → (follow answer).Rests thread home activity rest) :
    ((liftM (Effect.ofExcept outcome) : Routine First) >>= follow).Rests thread home activity
      rest := by
  intro context hand left idle
  have tried : (liftM (Effect.ofExcept outcome) : Routine First).Follows .clearing thread context
      hand (fun answer after last => outcome = .ok answer ∧ home.LeftAs after ∧
        activity.Idle home.id rest last)
      fun _ after last => home.LeftAs after ∧ activity.Idle home.id rest last :=
    follows_effect (Effect.follows_ofExcept (fun answer isOk => ⟨isOk, left, idle⟩)
      fun _ _ => ⟨left, idle⟩)
  exact tried.bind fun answer after middle reached =>
    second answer reached.1 after middle reached.2.1 reached.2.2

end Routine

namespace Script

variable {thread : ThreadId} {home : Context} {activity : Activity} {rest : Hand}

theorem loadLocal_rests (bank : Bank) (index : Nat) :
    (loadLocal bank index).Rests thread home activity rest :=
  Routine.rests_get_bind fun _ _ => Routine.rests_effect fun _ =>
    Effect.stays_ofAccess fun _ _ => trivial

theorem storeLocal_rests (bank : Bank) (index : Nat) (value : Value) :
    (storeLocal bank index value).Rests thread home activity rest := by
  refine Routine.rests_get_bind fun context left => ?_
  refine Routine.rests_access_bind fun locals _ => ?_
  exact Routine.rests_set ⟨left.id, left.arena, left.activity, left.sized⟩

theorem storeResult_rests (bank : Bank) (index : Nat) (value : Value) :
    (storeResult bank index value).Rests thread home activity rest := by
  refine Routine.rests_get_bind fun context left => ?_
  refine Routine.rests_access_bind fun results stored => ?_
  exact Routine.rests_set ⟨left.id, left.arena, left.activity,
    (RegisterFile.sizes_of_storeOrKeep stored).trans left.sized⟩

variable {station : Station}

section Calls

variable (tasks : station.RunsTasks) (named : station.policy.NamesThreads)
  (sound : station.program.Sound) (isOwn : home.arena = Machine.ownArena)
  (mayClaim : activity.role.MayClaim)

include tasks named sound isOwn mayClaim

/-- A script's call passes the gate, and is made by a context that is cleared. -/
theorem callFunction_rests (package function : String) (arguments returns : List Nat) :
    (callFunction station package function arguments returns).Rests station.thread home activity
      rest := by
  unfold callFunction
  refine Routine.rests_except_bind fun found isFound => ?_
  refine Routine.rests_except_bind fun unit isUnit => ?_
  obtain ⟨ofPackage, unitSound⟩ := (sound package found isFound).2.of_function isUnit
  -- Whether too many results are asked for is told before the gate; the rest is the same.
  have proceeds : (do
      station.ensureInitialized found (← get)
      station.callRegisters unit arguments returns : Routine Unit).Rests station.thread home activity
        rest := by
    refine Routine.rests_get_bind fun caller callerLeft context hand left idle => ?_
    obtain ⟨pursuit, isIdle, rfl⟩ := idle
    have ensured := @Station.ensureInitialized_follows_clearing activity rest found station tasks
      named caller (callerLeft.arena.trans isOwn) (sound package found isFound).2 mayClaim .running
    rw [callerLeft.id, ← ofPackage] at ensured
    have passed : (liftM (station.ensureInitialized found caller) : Routine Unit).Follows .clearing
        station.thread context ((home.id, activity.being .running pursuit) :: rest)
        (fun _ after last => context = after ∧
          last = (home.id, activity.being .running (.cleared unit.package)) :: rest)
        (fun _ after last => home.LeftAs after ∧ activity.Idle home.id rest last) := by
      refine Routine.follows_effect (Effect.Follows.weaken (Process.Follows.of_exchanged
        ⟨_, _, _, rfl⟩ (fun _ => exchanges_idle mayClaim isIdle) ensured) ?_ ?_)
      · exact fun _ _ isLast => ⟨rfl, isLast⟩
      · exact fun _ _ isLast => ⟨left, .nothing, id, isLast⟩
    refine passed.bind ?_
    rintro _ _ _ ⟨rfl, rfl⟩
    have called := @Station.callRegisters_follows activity rest station tasks named unit unitSound
      context (left.arena.trans isOwn) arguments returns
    rw [left.id] at called
    refine called.weaken ?_ ?_
    · rintro _ after _ ⟨isLeft, rfl⟩
      exact ⟨left.trans isLeft, _, id, rfl⟩
    · rintro _ after _ ⟨_, isLeft, isLast⟩
      exact ⟨left.trans isLeft, _, id, isLast⟩
  split
  · exact Routine.Rests.bind (Routine.rests_throw _) fun _ => proceeds
  · exact proceeds

theorem carryOut_rests (instruction : Instruction) :
    (carryOut station instruction).Rests station.thread home activity rest := by
  cases instruction with
  | constant target literal =>
      exact (storeLocal_rests _ _ _).bind fun _ => Routine.rests_pure _
  | add bank target left right =>
      by_cases numeric : isNumeric bank = true
      · simp only [carryOut, numeric, if_true]
        refine (loadLocal_rests _ _).bind fun first => ?_
        refine (loadLocal_rests _ _).bind fun second => ?_
        split
        · exact (storeLocal_rests _ _ _).bind fun _ => Routine.rests_pure _
        · exact Routine.rests_pure _
      · simp only [carryOut, numeric]
        exact Routine.rests_throw _
  | concat target left right =>
      refine (loadLocal_rests _ _).bind fun first => ?_
      refine (loadLocal_rests _ _).bind fun second => ?_
      split
      · exact (storeLocal_rests _ _ _).bind fun _ => Routine.rests_pure _
      · exact Routine.rests_pure _
  | move bank target source =>
      refine (loadLocal_rests _ _).bind fun value => ?_
      exact (storeLocal_rests _ _ _).bind fun _ => Routine.rests_pure _
  | storeReturn bank source slot =>
      refine (loadLocal_rests _ _).bind fun value => ?_
      exact (storeResult_rests _ _ _).bind fun _ => Routine.rests_pure _
  | finish =>
      exact Routine.rests_pure _
  | raise message =>
      refine Routine.Rests.bind (Routine.rests_modify fun context left => ?_) fun _ =>
        Routine.rests_pure _
      exact ⟨left.id, left.arena, left.activity, left.sized⟩
  | storeGlobal bank source slot =>
      refine (loadLocal_rests _ _).bind fun value => ?_
      refine Routine.Rests.bind (Routine.rests_effect fun hand => storeGlobal_stays _ value ?_)
        fun _ => Routine.rests_pure _
      intro machine hands globals fits _ _
      have inert : Inert machine { machine with globals := globals } := ⟨rfl, rfl, rfl⟩
      exact ⟨inert.permits, inert.fits fits⟩
  | loadGlobal bank target slot =>
      refine Routine.Rests.bind (Routine.rests_effect fun hand =>
        Effect.stays_read fun _ _ _ _ => trivial) fun loaded => ?_
      refine Routine.rests_access_bind fun value _ => ?_
      exact (storeLocal_rests _ _ _).bind fun _ => Routine.rests_pure _
  | call package function arguments returns =>
      exact (callFunction_rests tasks named sound isOwn mayClaim _ _ _ _).bind fun _ =>
        Routine.rests_pure _
  | sleep milliseconds =>
      exact Routine.Rests.bind (Routine.rests_effect fun hand =>
        Effect.stays_pause milliseconds trivial) fun _ => Routine.rests_pure _

theorem carryOutAll_rests (instructions : List Instruction) :
    (carryOutAll station instructions).Rests station.thread home activity rest := by
  induction instructions with
  | nil =>
      exact Routine.rests_pure _
  | cons instruction others inductionHypothesis =>
      unfold carryOutAll
      refine (carryOut_rests tasks named sound isOwn mayClaim instruction).bind fun continuation => ?_
      cases continuation with
      | next =>
          exact inductionHypothesis
      | stop exit =>
          exact Routine.rests_pure _

theorem interpreter_rests (bodies : Table BodyKey (List Instruction)) :
    (interpreter bodies station).Rests station.thread home activity rest := by
  refine Routine.rests_get_bind fun context _ => ?_
  split
  · exact Routine.rests_pure _
  · split
    · exact Routine.rests_throw _
    · exact carryOutAll_rests tasks named sound isOwn mayClaim _

end Calls

end Script

end WorkerMachine
