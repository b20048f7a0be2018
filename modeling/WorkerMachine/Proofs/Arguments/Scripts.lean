import WorkerMachine.Proofs.Arguments.Calls
import WorkerMachine.Script.Interpreter
/-!
# Scripts and faults about arguments

Whatever a script does, no fault about the kinds of arguments comes of it: its calls are calls from
registers, and its loads and stores keep to the banks that the instructions name.
-/

namespace WorkerMachine

variable {station : Station}

theorem storeGlobal_matches (slot : Slot) (value : Value) :
    (storeGlobal slot value).Matches fun _ => True := by
  unfold storeGlobal
  refine Effect.Matches.bind (Effect.matches_alter fun machine matched => ?_) fun _ _ =>
    Effect.matches_ofAccess _
  split
  · exact matched.of_same rfl rfl
  · exact matched

namespace Script

/-- An access to the registers of the context is made or panics. -/
theorem access_matches {First Second : Type} (access : Except Overrun First)
    {follow : First → Routine Second} (goesOn : ∀ answer, (follow answer).Matches) :
    ((liftM (Effect.ofAccess access) : Routine First) >>= follow).Matches :=
  Routine.Matches.of_effect (Effect.matches_ofAccess access) fun answer _ => goesOn answer

theorem loadLocal_matches (bank : Bank) (index : Nat) : (loadLocal bank index).Matches := by
  unfold loadLocal
  exact Routine.matches_get.bind fun context =>
    Routine.matches_effect (Effect.matches_ofAccess _)

theorem storeLocal_matches (bank : Bank) (index : Nat) (value : Value) :
    (storeLocal bank index value).Matches := by
  unfold storeLocal
  refine Routine.matches_get.bind fun context => ?_
  exact access_matches _ fun locals => Routine.matches_set _

theorem storeResult_matches (bank : Bank) (index : Nat) (value : Value) :
    (storeResult bank index value).Matches := by
  unfold storeResult
  refine Routine.matches_get.bind fun context => ?_
  exact access_matches _ fun results => Routine.matches_set _

variable (tasks : station.RunsMatched)

include tasks

theorem callFunction_matches (package function : String) (arguments returns : List Nat) :
    (callFunction station package function arguments returns).Matches := by
  unfold callFunction
  refine Routine.Matches.of_effect (Effect.matches_found
    (station.program.matched_package package)) fun found _ => ?_
  refine Routine.Matches.of_effect (Effect.matches_found
    (Program.matched_function found package function)) fun unit _ => ?_
  have goesOn : (do
      station.ensureInitialized found (← get)
      station.callRegisters unit arguments returns : Routine Unit).Matches := by
    refine Routine.matches_get.bind fun context => ?_
    refine Routine.Matches.of_effect (Station.ensureInitialized_matches tasks found context)
      fun _ _ => ?_
    exact Station.callRegisters_matches tasks unit arguments returns
  split
  · exact (Routine.matches_throw (Interruption.matched_fault rfl)).bind fun _ => goesOn
  · exact goesOn

/-- One instruction brings no fault about the kinds of arguments. -/
theorem carryOut_matches (instruction : Instruction) : (carryOut station instruction).Matches := by
  have next : ∀ {First : Type} {routine : Routine First}, routine.Matches →
      (routine >>= fun _ => (pure .next : Routine Continuation)).Matches :=
    fun first => first.bind fun _ => Routine.matches_pure _
  cases instruction with
  | constant target literal => exact next (storeLocal_matches _ _ _)
  | add bank target left right =>
      by_cases numeric : isNumeric bank = true
      · simp only [carryOut, numeric, if_true]
        refine (loadLocal_matches _ _).bind fun first => ?_
        refine (loadLocal_matches _ _).bind fun second => ?_
        split
        · exact next (storeLocal_matches _ _ _)
        · exact Routine.matches_pure _
      · simp only [carryOut, numeric]
        exact Routine.matches_throw (Interruption.matched_fault rfl)
  | concat target left right =>
      refine (loadLocal_matches _ _).bind fun first => ?_
      refine (loadLocal_matches _ _).bind fun second => ?_
      split
      · exact next (storeLocal_matches _ _ _)
      · exact Routine.matches_pure _
  | move bank target source =>
      exact (loadLocal_matches _ _).bind fun value => next (storeLocal_matches _ _ _)
  | storeReturn bank source slot =>
      exact (loadLocal_matches _ _).bind fun value => next (storeResult_matches _ _ _)
  | finish => exact Routine.matches_pure _
  | raise message =>
      exact (Routine.matches_modify _).bind fun _ => Routine.matches_pure _
  | storeGlobal bank source slot =>
      exact (loadLocal_matches _ _).bind fun value =>
        next (Routine.matches_effect (storeGlobal_matches _ _))
  | loadGlobal bank target slot =>
      have looked : (Effect.read fun machine : Machine =>
          machine.globals.load ⟨bank, slot⟩).Matches fun _ => True :=
        Effect.matches_read fun _ _ => trivial
      unfold carryOut
      refine Routine.Matches.of_effect looked fun loaded _ => ?_
      exact access_matches loaded fun value => next (storeLocal_matches _ _ _)
  | call package function arguments returns =>
      exact next (callFunction_matches tasks package function arguments returns)
  | sleep milliseconds =>
      exact next (Routine.matches_effect (Effect.matches_pause milliseconds))

theorem carryOutAll_matches (instructions : List Instruction) :
    (carryOutAll station instructions).Matches := by
  induction instructions with
  | nil => exact Routine.matches_pure _
  | cons instruction rest inductionHypothesis =>
      unfold carryOutAll
      refine (carryOut_matches tasks instruction).bind fun continuation => ?_
      cases continuation with
      | next => exact inductionHypothesis
      | stop exit => exact Routine.matches_pure _

theorem interpreter_matches (bodies : Table BodyKey (List Instruction)) :
    (interpreter bodies station).Matches := by
  unfold interpreter Interpreter.ofBodies
  refine Routine.matches_get.bind fun context => ?_
  split
  · exact Routine.matches_pure _
  · split
    · exact Routine.matches_throw (Interruption.matched_fault rfl)
    · exact carryOutAll_matches tasks _

end Script

/-- Scripts bring no fault about the kinds of arguments on any station, however deep tasks may nest. -/
theorem Setup.station_runsMatched (setup : Setup)
    (bodies : Table BodyKey (List Script.Instruction)) (thread : ThreadId) (depth : Nat) :
    (setup.station (Script.interpreter bodies) thread depth).RunsMatched := by
  induction depth with
  | zero => exact fun task => Effect.follows_stall fun _ _ _ _ => trivial
  | succ depth inductionHypothesis =>
      exact fun task => Station.carryOut_matches
        (Script.interpreter_matches inductionHypothesis bodies) task

/-- A thread that is started for a task brings no fault about the kinds of arguments. -/
theorem Setup.threadOf_matched (setup : Setup) (bodies : Table BodyKey (List Script.Instruction))
    (depth : Nat) (thread : ThreadId) (task : Task) :
    (setup.threadOf (Script.interpreter bodies) depth thread task).Keeps Machine.Matched
      fun _ => True :=
  Process.Stays.bind (setup.station_runsMatched bodies thread depth task).run fun _ _ =>
    Process.matched_modify fun _ matched => matched.of_same rfl rfl

end WorkerMachine
