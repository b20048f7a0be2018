import WorkerMachine.Proofs.Machine.Surroundings
import WorkerMachine.Script.Interpreter
/-!
# Scripts and disciplines

An instruction touches the registers of its own context, and it may read and write global memory or
make a call.  So scripts follow every discipline that tolerates the machine's own work, if passing
the gate and storing in global memory follow it.
-/

namespace WorkerMachine.Script

variable {Thread Token : Type} [DecidableEq Thread] {discipline : Discipline Thread Machine Token}
  {thread : Thread} {token : Token} {station : Station}

/-- A call keeps the sizes of its caller's registers, whether it succeeds or fails. -/
theorem callFunction_stays (tolerance : discipline.ToleratesMild thread token)
    (tasks : station.TasksStay discipline thread token)
    (gates : station.GatesStay discipline thread token)
    (package function : String) (arguments returns : List Nat) (context : Context) :
    (callFunction station package function arguments returns).Stays discipline thread token
      context (fun _ after => context.SameSizes after) context.SameSizes := by
  have unchanged : context.SameSizes context := ⟨rfl, rfl⟩
  have lifts : ∀ {Answer : Type} {effect : Effect Answer},
      effect.Stays discipline thread token (fun _ => True) →
        (liftM effect : Routine Answer).Stays discipline thread token context
          (fun _ after => context = after) context.SameSizes := by
    intro Answer effect stays
    exact Routine.stays_effect (stays.weaken fun _ _ => rfl) unchanged
  have proceeds : ∀ (found : Package) (unit : Callable),
      station.program.package package = .ok found → (do
        station.ensureInitialized found (← get)
        station.callRegisters unit arguments returns : Routine Unit).Stays
          discipline thread token context (fun _ after => context.SameSizes after)
          context.SameSizes := by
    intro found unit isFound
    have looked : (get : Routine Context).Stays discipline thread token context
        (fun _ after => context = after) context.SameSizes :=
      Routine.stays_get rfl
    refine looked.bind fun caller after same => ?_
    subst same
    refine (lifts (gates package found isFound caller)).bind fun _ after same => ?_
    subst same
    exact Station.callRegisters_stays tolerance tasks unit arguments returns context
  unfold callFunction
  have found : (liftM (Effect.ofExcept (station.program.package package)) :
      Routine Package).Stays discipline thread token context
        (fun found after => station.program.package package = .ok found ∧ context = after)
        context.SameSizes :=
    Routine.stays_effect (Effect.stays_ofExcept fun _ isFound => ⟨isFound, rfl⟩) unchanged
  refine found.bind fun found after reached => ?_
  obtain ⟨isFound, rfl⟩ := reached
  refine (lifts (Effect.stays_ofExcept fun _ _ => trivial)).bind fun unit after same => ?_
  subst same
  split
  · have refused : (throw (.fault (.arityMismatch unit.qualifiedName unit.returns.length
        returns.length)) : Routine PUnit).Stays discipline thread token context
          (fun _ _ => False) context.SameSizes :=
      Routine.stays_throw unchanged
    exact refused.bind fun _ _ never => never.elim
  · exact proceeds found unit isFound

theorem loadLocal_stays (bank : Bank) (index : Nat) (context : Context) :
    (loadLocal bank index).Stays discipline thread token context (fun _ _ => True)
      fun _ => True := by
  have looked : (get : Routine Context).Stays discipline thread token context
      (fun _ _ => True) fun _ => True :=
    Routine.stays_get trivial
  exact looked.bind fun _ _ _ =>
    Routine.stays_effect (Effect.stays_ofAccess fun _ _ => trivial) trivial

theorem storeLocal_stays (bank : Bank) (index : Nat) (value : Value) (context : Context) :
    (storeLocal bank index value).Stays discipline thread token context (fun _ _ => True)
      fun _ => True := by
  have looked : (get : Routine Context).Stays discipline thread token context
      (fun _ _ => True) fun _ => True :=
    Routine.stays_get trivial
  refine looked.bind fun before after _ => ?_
  have accessed : (liftM (Effect.ofAccess (before.locals.storeOrKeep ⟨bank, index⟩ value)) :
      Routine RegisterFile).Stays discipline thread token after (fun _ _ => True)
        fun _ => True :=
    Routine.stays_effect (Effect.stays_ofAccess fun _ _ => trivial) trivial
  exact accessed.bind fun _ _ _ => Routine.stays_set trivial

theorem storeResult_stays (bank : Bank) (index : Nat) (value : Value) (context : Context) :
    (storeResult bank index value).Stays discipline thread token context (fun _ _ => True)
      fun _ => True := by
  have looked : (get : Routine Context).Stays discipline thread token context
      (fun _ _ => True) fun _ => True :=
    Routine.stays_get trivial
  refine looked.bind fun before after _ => ?_
  have accessed : (liftM (Effect.ofAccess (before.results.storeOrKeep ⟨bank, index⟩ value)) :
      Routine RegisterFile).Stays discipline thread token after (fun _ _ => True)
        fun _ => True :=
    Routine.stays_effect (Effect.stays_ofAccess fun _ _ => trivial) trivial
  exact accessed.bind fun _ _ _ => Routine.stays_set trivial

theorem carryOut_stays (tolerance : discipline.ToleratesMild thread token)
    (tasks : station.TasksStay discipline thread token)
    (gates : station.GatesStay discipline thread token)
    (stores : discipline.StoresStay thread token) (instruction : Instruction) (context : Context) :
    (carryOut station instruction).Stays discipline thread token context (fun _ _ => True)
      fun _ => True := by
  have goesOn : ∀ (continuation : Continuation) (after : Context),
      (pure continuation : Routine Continuation).Stays discipline thread token after
        (fun _ _ => True) fun _ => True :=
    fun _ _ => Routine.stays_pure trivial
  cases instruction with
  | constant target literal =>
      unfold carryOut
      exact (storeLocal_stays _ _ _ context).bind fun _ after _ => goesOn .next after
  | add bank target left right =>
      by_cases numeric : isNumeric bank = true
      · simp only [carryOut, numeric, if_true]
        refine (loadLocal_stays _ _ context).bind fun first after _ => ?_
        refine (loadLocal_stays _ _ after).bind fun second after _ => ?_
        split
        · exact (storeLocal_stays _ _ _ after).bind fun _ after _ => goesOn .next after
        · exact goesOn .next after
      · simp only [carryOut, numeric]
        exact Routine.stays_throw trivial
  | concat target left right =>
      unfold carryOut
      refine (loadLocal_stays _ _ context).bind fun first after _ => ?_
      refine (loadLocal_stays _ _ after).bind fun second after _ => ?_
      split
      · exact (storeLocal_stays _ _ _ after).bind fun _ after _ => goesOn .next after
      · exact goesOn .next after
  | move bank target source =>
      unfold carryOut
      refine (loadLocal_stays _ _ context).bind fun value after _ => ?_
      exact (storeLocal_stays _ _ _ after).bind fun _ after _ => goesOn .next after
  | storeReturn bank source slot =>
      unfold carryOut
      refine (loadLocal_stays _ _ context).bind fun value after _ => ?_
      exact (storeResult_stays _ _ _ after).bind fun _ after _ => goesOn .next after
  | finish =>
      unfold carryOut
      exact goesOn _ context
  | raise message =>
      unfold carryOut
      exact goesOn _ _
  | storeGlobal bank source slot =>
      unfold carryOut
      refine (loadLocal_stays _ _ context).bind fun value after _ => ?_
      have stored : (liftM (storeGlobal ⟨bank, slot⟩ value) : Routine Unit).Stays
          discipline thread token after (fun _ _ => True) fun _ => True :=
        Routine.stays_effect (stores _ value) trivial
      exact stored.bind fun _ after _ => goesOn .next after
  | loadGlobal bank target slot =>
      unfold carryOut
      have looked : (liftM (Effect.read fun machine => machine.globals.load ⟨bank, slot⟩) :
          Routine _).Stays discipline thread token context (fun _ _ => True) fun _ => True :=
        Routine.stays_effect (Effect.tolerated_read _) trivial
      refine looked.bind fun loaded after _ => ?_
      have accessed : (liftM (Effect.ofAccess loaded) : Routine Value).Stays
          discipline thread token after (fun _ _ => True) fun _ => True :=
        Routine.stays_effect (Effect.stays_ofAccess fun _ _ => trivial) trivial
      refine accessed.bind fun value after _ => ?_
      exact (storeLocal_stays _ _ _ after).bind fun _ after _ => goesOn .next after
  | call package function arguments returns =>
      unfold carryOut
      have called := callFunction_stays tolerance tasks gates package function arguments returns
        context
      exact called.forget.bind fun _ after _ => goesOn .next after
  | sleep milliseconds =>
      unfold carryOut
      exact goesOn .next context

theorem carryOutAll_stays (tolerance : discipline.ToleratesMild thread token)
    (tasks : station.TasksStay discipline thread token)
    (gates : station.GatesStay discipline thread token)
    (stores : discipline.StoresStay thread token)
    (instructions : List Instruction) (context : Context) :
    (carryOutAll station instructions).Stays discipline thread token context
      (fun _ _ => True) fun _ => True := by
  induction instructions generalizing context with
  | nil =>
      exact Routine.stays_pure trivial
  | cons instruction rest inductionHypothesis =>
      unfold carryOutAll
      have first := carryOut_stays tolerance tasks gates stores instruction context
      refine first.bind fun continuation after _ => ?_
      cases continuation with
      | next =>
          exact inductionHypothesis after
      | stop exit =>
          exact Routine.stays_pure trivial

theorem runOn_interpreter {bodies : Table BodyKey (List Instruction)} {unit : Callable}
    {worker : Worker} {instructions : List Instruction} {context : Context} (station : Station)
    (isActive : context.activity = some (unit, worker))
    (isBody : bodies.get? (unit.bodyKey worker) = some instructions) :
    (interpreter bodies station).runOn context = (carryOutAll station instructions).runOn context := by
  unfold interpreter Interpreter.ofBodies
  rw [Routine.runOn_bind, Routine.runOn_get, Process.done_bind]
  dsimp only
  rw [isActive]
  dsimp only
  rw [isBody]

/-- Every body that is a script follows the discipline. -/
theorem interpreter_stays (tolerance : discipline.ToleratesMild thread token)
    (tasks : station.TasksStay discipline thread token)
    (gates : station.GatesStay discipline thread token)
    (stores : discipline.StoresStay thread token) (bodies : Table BodyKey (List Instruction))
    (context : Context) :
    (interpreter bodies station).Stays discipline thread token context (fun _ _ => True)
      fun _ => True := by
  have looked : (get : Routine Context).Stays discipline thread token context
      (fun _ _ => True) fun _ => True :=
    Routine.stays_get trivial
  refine looked.bind fun before after _ => ?_
  split
  · exact Routine.stays_pure trivial
  · split
    · exact Routine.stays_throw trivial
    · exact carryOutAll_stays tolerance tasks gates stores _ after

theorem interpreter_keepsToStation (bodies : Table BodyKey (List Instruction)) :
    (interpreter bodies).KeepsToStation := by
  intro station Thread Token _ discipline thread token tolerance tasks inits stores context
  exact interpreter_stays tolerance.mild tasks inits.gates stores bodies context

/-- If passing the gate follows a discipline wherever tasks do, and carrying out a task does so
wherever its body does, then all tasks of scripts follow it, with any token of a kind. -/
theorem tasks_stay (bodies : Table BodyKey (List Instruction)) (setup : Setup) (number : ThreadId)
    (tolerant : Token → Prop)
    (tolerance : ∀ token, tolerant token → discipline.ToleratesMild thread token)
    (gates : ∀ depth,
      (∀ token, tolerant token →
        (setup.station (interpreter bodies) number depth).TasksStay discipline thread token) →
      ∀ token, tolerant token →
        (setup.station (interpreter bodies) number depth).GatesStay discipline thread token)
    (stores : ∀ token, tolerant token → discipline.StoresStay thread token)
    (carries : ∀ station : Station,
      (∀ token, tolerant token → ∀ context, (interpreter bodies station).Stays discipline thread
        token context (fun _ _ => True) fun _ => True) →
      ∀ token, tolerant token → ∀ task,
        (station.carryOut (interpreter bodies) task).Stays discipline thread token fun _ => True)
    (depth : Nat) (token : Token) (tolerates : tolerant token) :
    (setup.station (interpreter bodies) number depth).TasksStay discipline thread token := by
  induction depth generalizing token with
  | zero =>
      exact fun _ => Effect.tolerated_stall (tolerance token tolerates)
  | succ depth inductionHypothesis =>
      refine carries _ (fun token tolerates context => ?_) token tolerates
      exact interpreter_stays (tolerance token tolerates) (inductionHypothesis token tolerates)
        (gates depth inductionHypothesis token tolerates) (stores token tolerates) bodies context

end WorkerMachine.Script
