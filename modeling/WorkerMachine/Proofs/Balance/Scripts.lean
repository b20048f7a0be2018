import WorkerMachine.Manifest.Loading
import WorkerMachine.Proofs.Balance.Waiting
import WorkerMachine.Script.Interpreter
/-!
# Scripts that wait for their calls

The instructions of a script make waiting calls only, and between them nothing that is accounted for.  So
scripts wait for their calls, if only the operands of their calls exist.
-/

namespace WorkerMachine

open Balance

/-! ## Routines -/

/-- A context goes on being what it was, and keeps the sizes of all its registers. -/
structure Context.Remains (home context : Context) : Prop extends home.LeftAs context where
  locals : context.locals.sizes = home.locals.sizes

/-- A routine waits for the calls that it makes from a context, and does not change what its context has
to go on being. -/
def Routine.Waits {Answer : Type} (station : Station) (home : Context) (routine : Routine Answer) :
    Prop :=
  ∀ context, home.Remains context →
    station.Waits [home.id] (fun answer => home.Remains answer.2) (routine.runOn context)

namespace Routine

variable {Answer First Second : Type} {station : Station} {home : Context}

theorem waits_pure (answer : Answer) : (pure answer : Routine Answer).Waits station home :=
  fun _ remains => .ended remains

theorem waits_throw (interruption : Interruption) :
    (throw interruption : Routine Answer).Waits station home :=
  fun _ remains => .ended remains

theorem Waits.bind {routine : Routine First} {follow : First → Routine Second}
    (first : routine.Waits station home) (second : ∀ answer, (follow answer).Waits station home) :
    (routine >>= follow).Waits station home := by
  intro context remains
  rw [runOn_bind]
  refine (first context remains).bind fun ⟨outcome, after⟩ remainsAfter => ?_
  cases outcome with
  | ok answer => exact second answer after remainsAfter
  | error interruption => exact .ended remainsAfter

/-- A routine that looks at its context may rely on what the context goes on being. -/
theorem waits_get_bind {follow : Context → Routine Answer}
    (second : ∀ context, home.Remains context → (follow context).Waits station home) :
    (get >>= follow).Waits station home :=
  fun context remains => second context remains context remains

theorem waits_set {after : Context} (remains : home.Remains after) :
    (set after : Routine PUnit).Waits station home :=
  fun _ _ => .ended remains

theorem waits_modify {change : Context → Context}
    (keeps : ∀ context, home.Remains context → home.Remains (change context)) :
    (modify change : Routine PUnit).Waits station home :=
  fun context remains => .ended (keeps context remains)

/-- An effect that waits for its calls leaves the context alone. -/
theorem waits_effect {effect : Effect Answer}
    (waits : station.Waits [home.id] (fun _ => True) effect.run) :
    (liftM effect : Routine Answer).Waits station home := by
  intro context remains
  rw [runOn_effect]
  exact waits.bind fun _ _ => .ended remains

/-- An access to registers, of which only an answer is gone on with. -/
theorem waits_access_bind {outcome : Except Overrun First} {follow : First → Routine Answer}
    (second : ∀ answer, outcome = .ok answer → (follow answer).Waits station home) :
    ((liftM (Effect.ofAccess outcome) : Routine First) >>= follow).Waits station home := by
  intro context remains
  cases outcome with
  | ok answer => exact second answer rfl context remains
  | error overrun => exact .ended remains

/-- Something that may fail, of which only an answer is gone on with. -/
theorem waits_except_bind {outcome : Except Fault First} {follow : First → Routine Answer}
    (second : ∀ answer, outcome = .ok answer → (follow answer).Waits station home) :
    ((liftM (Effect.ofExcept outcome) : Routine First) >>= follow).Waits station home := by
  intro context remains
  cases outcome with
  | ok answer => exact second answer rfl context remains
  | error fault => exact .ended remains

end Routine

/-! ## Instructions -/

namespace Script

/-- The function of a program that an instruction calls, if it is a call and finds one, and where the
call reads its arguments. -/
def Instruction.called? (program : Program) : Instruction → Option (Callable × List Nat)
  | .call package function arguments _ =>
    match program.package package with
    | .error _ => none
    | .ok found =>
      match Program.function found package function with
      | .error _ => none
      | .ok unit => some (unit, arguments)
  | _ => none

/-- If an instruction is a call, then the registers that it reads its arguments from exist. -/
def Instruction.ReadsInRange (program : Program) (sizes : BankSizes) (instruction : Instruction) :
    Prop :=
  ∀ called ∈ instruction.called? program, called.1.Reads sizes called.2

instance (program : Program) (sizes : BankSizes) (instruction : Instruction) :
    Decidable (instruction.ReadsInRange program sizes) :=
  inferInstanceAs (Decidable (∀ called ∈ instruction.called? program, called.1.Reads sizes called.2))

variable {station : Station} {home : Context}

theorem loadLocal_waits (bank : Bank) (index : Nat) :
    (loadLocal bank index).Waits station home := by
  refine Routine.waits_get_bind fun context _ => Routine.waits_effect ?_
  cases context.locals.load ⟨bank, index⟩ <;> exact .ended trivial

theorem storeLocal_waits (bank : Bank) (index : Nat) (value : Value) :
    (storeLocal bank index value).Waits station home := by
  refine Routine.waits_get_bind fun context remains => ?_
  refine Routine.waits_access_bind fun locals stored => Routine.waits_set ?_
  exact ⟨⟨remains.id, remains.arena, remains.activity, remains.sized⟩,
    (RegisterFile.sizes_of_storeOrKeep stored).trans remains.locals⟩

theorem storeResult_waits (bank : Bank) (index : Nat) (value : Value) :
    (storeResult bank index value).Waits station home := by
  refine Routine.waits_get_bind fun context remains => ?_
  refine Routine.waits_access_bind fun results stored => Routine.waits_set ?_
  exact ⟨⟨remains.id, remains.arena, remains.activity,
    (RegisterFile.sizes_of_storeOrKeep stored).trans remains.sized⟩, remains.locals⟩

theorem storeGlobal_waits (slot : Slot) (value : Value) :
    (liftM (storeGlobal slot value) : Routine Unit).Waits station home := by
  have accessed : ∀ outcome : Except Overrun Unit,
      station.Waits [home.id] (fun _ => True) (Effect.ofAccess outcome).run := by
    rintro (_ | _) <;> exact .ended trivial
  refine Routine.waits_effect (.aside (fun machine => ?_) fun _ => accessed _)
  dsimp only
  split <;> exact ⟨⟨rfl, Nat.le_refl _, rfl, rfl, rfl⟩, rfl, rfl⟩

theorem callFunction_waits (isOwn : home.arena = Machine.ownArena) {package function : String}
    {arguments returns : List Nat}
    (inRange : (Instruction.call package function arguments returns).ReadsInRange station.program
      home.locals.sizes) :
    (callFunction station package function arguments returns).Waits station home := by
  unfold callFunction
  refine Routine.waits_except_bind fun found isFound => ?_
  refine Routine.waits_except_bind fun unit isUnit => ?_
  have declared : station.program.Declares unit := .of_function isFound isUnit
  -- Whether too many results are asked for is told before the gate; the rest is the same.
  have proceeds : (do
      station.ensureInitialized found (← get)
      station.callRegisters unit arguments returns : Routine Unit).Waits station home := by
    refine Routine.waits_get_bind fun caller callerRemains => ?_
    have ensured := @Station.Waits.ensureInitialized station [home.id] package found caller isFound
      (callerRemains.arena.trans isOwn)
    refine Routine.Waits.bind (Routine.waits_effect ensured) fun _ context remains => ?_
    have reads : unit.Reads context.locals.sizes arguments := by
      rw [remains.locals]
      refine inRange (unit, arguments) ?_
      simp [Instruction.called?, isFound, isUnit]
    refine (Station.Waits.callRegisters declared (remains.arena.trans isOwn)
      (by rw [remains.id]; exact List.mem_singleton_self _) reads returns).weaken ?_
    exact fun _ ⟨left, sized⟩ => ⟨remains.toLeftAs.trans left, sized.trans remains.locals⟩
  split
  · exact Routine.Waits.bind (Routine.waits_throw _) fun _ => proceeds
  · exact proceeds

theorem carryOut_waits (isOwn : home.arena = Machine.ownArena) {instruction : Instruction}
    (inRange : instruction.ReadsInRange station.program home.locals.sizes) :
    (carryOut station instruction).Waits station home := by
  cases instruction with
  | constant target literal =>
      exact (storeLocal_waits _ _ _).bind fun _ => Routine.waits_pure _
  | add bank target left right =>
      by_cases numeric : isNumeric bank = true
      · simp only [carryOut, numeric, if_true]
        refine (loadLocal_waits _ _).bind fun first => ?_
        refine (loadLocal_waits _ _).bind fun second => ?_
        split
        · exact (storeLocal_waits _ _ _).bind fun _ => Routine.waits_pure _
        · exact Routine.waits_pure _
      · simp only [carryOut, numeric]
        exact Routine.waits_throw _
  | concat target left right =>
      refine (loadLocal_waits _ _).bind fun first => ?_
      refine (loadLocal_waits _ _).bind fun second => ?_
      split
      · exact (storeLocal_waits _ _ _).bind fun _ => Routine.waits_pure _
      · exact Routine.waits_pure _
  | move bank target source =>
      refine (loadLocal_waits _ _).bind fun value => ?_
      exact (storeLocal_waits _ _ _).bind fun _ => Routine.waits_pure _
  | storeReturn bank source slot =>
      refine (loadLocal_waits _ _).bind fun value => ?_
      exact (storeResult_waits _ _ _).bind fun _ => Routine.waits_pure _
  | finish =>
      exact Routine.waits_pure _
  | raise message =>
      refine Routine.Waits.bind (Routine.waits_modify fun context remains => ?_) fun _ =>
        Routine.waits_pure _
      exact ⟨⟨remains.id, remains.arena, remains.activity, remains.sized⟩, remains.locals⟩
  | storeGlobal bank source slot =>
      refine (loadLocal_waits _ _).bind fun value => ?_
      exact (storeGlobal_waits _ value).bind fun _ => Routine.waits_pure _
  | loadGlobal bank target slot =>
      refine Routine.Waits.bind (Routine.waits_effect (.aside
        (fun _ => ⟨⟨rfl, Nat.le_refl _, rfl, rfl, rfl⟩, rfl, rfl⟩) fun _ => .ended trivial))
        fun loaded => ?_
      refine Routine.waits_access_bind fun value _ => ?_
      exact (storeLocal_waits _ _ _).bind fun _ => Routine.waits_pure _
  | call package function arguments returns =>
      exact (callFunction_waits isOwn inRange).bind fun _ => Routine.waits_pure _
  | sleep milliseconds =>
      exact Routine.Waits.bind (Routine.waits_effect (.slept (.ended trivial))) fun _ =>
        Routine.waits_pure _

theorem carryOutAll_waits (isOwn : home.arena = Machine.ownArena) {instructions : List Instruction}
    (inRange : ∀ instruction ∈ instructions,
      instruction.ReadsInRange station.program home.locals.sizes) :
    (carryOutAll station instructions).Waits station home := by
  induction instructions with
  | nil =>
      exact Routine.waits_pure _
  | cons instruction others inductionHypothesis =>
      unfold carryOutAll
      refine (carryOut_waits isOwn (inRange instruction List.mem_cons_self)).bind
        fun continuation => ?_
      cases continuation with
      | next =>
          exact inductionHypothesis fun other member =>
            inRange other (List.mem_cons_of_mem _ member)
      | stop exit =>
          exact Routine.waits_pure _

end Script

/-- In all scripts of a loaded program, the registers exist that calls read their arguments from. -/
def Manifest.Loaded.CallsInRange (loaded : Loaded) : Prop :=
  ∀ unit ∈ loaded.units, ∀ worker ∈ unit.workers,
    ∀ body ∈ loaded.bodies.get? (unit.bodyKey worker), ∀ instruction ∈ body,
      instruction.ReadsInRange loaded.program worker.locals

instance (loaded : Manifest.Loaded) : Decidable loaded.CallsInRange :=
  inferInstanceAs (Decidable (∀ unit ∈ loaded.units, ∀ worker ∈ unit.workers,
    ∀ body ∈ loaded.bodies.get? (unit.bodyKey worker), ∀ instruction ∈ body,
      instruction.ReadsInRange loaded.program worker.locals))

theorem Program.Declares.mem_units {loaded : Manifest.Loaded} {unit : Callable}
    (declared : loaded.program.Declares unit) : unit ∈ loaded.units := by
  obtain ⟨name, package, isFound, isUnit⟩ := declared
  have isPackage : package ∈ loaded.program.packages.values := by
    unfold Program.package at isFound
    split at isFound
    · next isHeld =>
      cases isFound
      exact Table.mem_values_of_get? isHeld
    · cases isFound
  refine List.mem_flatMap.mpr ⟨package, isPackage, List.mem_append.mpr ?_⟩
  rcases isUnit with isInit | ⟨function, isFunction⟩
  · exact .inr (Option.mem_toList.mpr isInit)
  · exact .inl (Table.mem_values_of_get? isFunction)

theorem Script.interpreter_waitsOnly {loaded : Manifest.Loaded} (inRange : loaded.CallsInRange) :
    (interpreter loaded.bodies).WaitsOnly loaded.program := by
  rintro station task isProgram prepares
  obtain ⟨unit, worker, ofUnit, declared, member, locals, _⟩ := prepares.ofUnit
  have waits : (interpreter loaded.bodies station).Waits station task.context := by
    refine Routine.waits_get_bind fun context remains => ?_
    rw [remains.activity, ofUnit]
    dsimp only
    split
    · exact Routine.waits_throw _
    · next body isBody =>
      refine carryOutAll_waits prepares.arena fun instruction isMember => ?_
      rw [locals, isProgram]
      exact inRange unit declared.mem_units worker member body isBody instruction isMember
  exact (waits task.context ⟨⟨rfl, rfl, rfl, rfl⟩, rfl⟩).weaken fun _ remains => remains.toLeftAs

end WorkerMachine
