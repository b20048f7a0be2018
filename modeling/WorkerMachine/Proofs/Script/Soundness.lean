import WorkerMachine.Proofs.Machine.GlobalMemory
import WorkerMachine.Proofs.Process.Acting
import WorkerMachine.Proofs.Script.Following
import WorkerMachine.Proofs.Script.Strict
/-!
# Checked scripts run soundly

An instruction that is carried out strictly without a violation is carried out by the interpreter in
just that way, at one moment, whatever other threads do to the machine before and afterwards.  As an
instruction that has been checked never violates anything and keeps the sizes of all registers, so
does a list of checked instructions from its beginning to its end, calls included.
-/

namespace WorkerMachine.Script

variable {station : Station} {context : Context}

/-! ## The interpreter follows the strict instructions -/

/-- What a strict instruction does to a machine: it goes on as described, and only global memory is
changed. -/
def Instruction.Performs (instruction : Instruction) (context : Context) (before : Machine)
    (answer : Except Interruption Continuation × Context) (later : Machine) : Prop :=
  ∃ continuation after globals,
    instruction.perform context before.globals = .ok (continuation, after, globals) ∧
      answer = (.ok continuation, after) ∧ later = { before with globals := globals }

theorem load_of_readStrictly {file : RegisterFile} {slot : Slot} {value : Value}
    (readValue : readStrictly file slot = .ok value) : file.load slot = .ok value := by
  unfold readStrictly at readValue
  split at readValue
  · next loaded =>
    cases readValue
    exact loaded
  · cases readValue

theorem storeOrKeep_of_storeStrictly {file after : RegisterFile} {slot : Slot} {value : Value}
    (stored : storeStrictly file slot value = .ok after) :
    file.storeOrKeep slot value = .ok after := by
  unfold storeStrictly at stored
  unfold RegisterFile.storeOrKeep
  cases found : file.store slot value with
  | ok kept =>
      rw [found] at stored
      cases stored
      rfl
  | error failure =>
      rw [found] at stored
      cases failure <;> cases stored

theorem runOn_loadLocal {bank : Bank} {index : Nat} {value : Value}
    (readValue : readStrictly context.locals ⟨bank, index⟩ = .ok value) :
    (loadLocal bank index).runOn context = .done (.ok value, context) := by
  have unfolded : (loadLocal bank index).runOn context =
      (Effect.ofAccess (context.locals.load ⟨bank, index⟩)).run.bind fun outcome =>
        .done (outcome, context) :=
    rfl
  rw [unfolded, load_of_readStrictly readValue]
  rfl

theorem runOn_storeLocal {bank : Bank} {index : Nat} {value : Value} {locals : RegisterFile}
    (stored : storeStrictly context.locals ⟨bank, index⟩ value = .ok locals) :
    (storeLocal bank index value).runOn context =
      .done (.ok (), { context with locals := locals }) := by
  unfold storeLocal
  rw [Routine.runOn_bind]
  change Process.bind (Process.bind (Effect.ofAccess
    (context.locals.storeOrKeep ⟨bank, index⟩ value)).run _) _ = _
  rw [storeOrKeep_of_storeStrictly stored]
  rfl

theorem runOn_storeResult {bank : Bank} {index : Nat} {value : Value} {results : RegisterFile}
    (stored : storeStrictly context.results ⟨bank, index⟩ value = .ok results) :
    (storeResult bank index value).runOn context =
      .done (.ok (), { context with results := results }) := by
  unfold storeResult
  rw [Routine.runOn_bind]
  change Process.bind (Process.bind (Effect.ofAccess
    (context.results.storeOrKeep ⟨bank, index⟩ value)).run _) _ = _
  rw [storeOrKeep_of_storeStrictly stored]
  rfl

theorem sum?_of_addStrictly {bank : Bank} {left right sum : Value}
    (added : addStrictly bank left right = .ok sum) :
    isNumeric bank = true ∧ sum? left right = some sum := by
  unfold addStrictly at added
  split at added
  · next numeric =>
    split at added
    · next found =>
      cases added
      exact ⟨numeric, found⟩
    · cases added
  · cases added

theorem texts_of_joinStrictly {left right joined : Value}
    (joins : joinStrictly left right = .ok joined) :
    ∃ first second, left = .text first ∧ right = .text second ∧
      joined = .text (first ++ second) := by
  unfold joinStrictly at joins
  split at joins
  · next first second =>
    cases joins
    exact ⟨first, second, rfl, rfl, rfl⟩
  · cases joins
  · cases joins

/-- Where an instruction other than a call never violates anything, the interpreter does in one go
what the strict instruction does. -/
theorem carryOut_actsAs (station : Station) {instruction : Instruction}
    (noCall : instruction.isCall = false) {allowed : Machine → Prop}
    (witnessed : ∃ machine, allowed machine)
    (performs : ∀ machine, allowed machine → ∃ continuation after globals,
      instruction.perform context machine.globals = .ok (continuation, after, globals)) :
    ((carryOut station instruction).runOn context).ActsAs allowed
      (instruction.Performs context) := by
  obtain ⟨witness, holds⟩ := witnessed
  obtain ⟨continuation, after, globals, performed⟩ := performs witness holds
  cases instruction with
  | constant target literal =>
      obtain ⟨locals, stored, _⟩ := exists_of_bind_eq_ok performed
      have run : (carryOut station (.constant target literal)).runOn context =
          .done (.ok .next, { context with locals := locals }) := by
        unfold carryOut
        rw [Routine.runOn_bind, runOn_storeLocal stored]
        rfl
      rw [run]
      intro machine _
      refine ⟨.next, { context with locals := locals }, machine.globals, ?_, rfl, rfl⟩
      simp only [Instruction.perform, stored]
      rfl
  | add bank target left right =>
      obtain ⟨first, firstRead, rest⟩ := exists_of_bind_eq_ok performed
      obtain ⟨second, secondRead, rest⟩ := exists_of_bind_eq_ok rest
      obtain ⟨sum, added, rest⟩ := exists_of_bind_eq_ok rest
      obtain ⟨locals, stored, _⟩ := exists_of_bind_eq_ok rest
      obtain ⟨numeric, found⟩ := sum?_of_addStrictly added
      have run : (carryOut station (.add bank target left right)).runOn context =
          .done (.ok .next, { context with locals := locals }) := by
        simp only [carryOut, numeric, if_true, Routine.runOn_bind, runOn_loadLocal firstRead,
          runOn_loadLocal secondRead, Process.done_bind, found, runOn_storeLocal stored]
        rfl
      rw [run]
      intro machine _
      refine ⟨.next, { context with locals := locals }, machine.globals, ?_, rfl, rfl⟩
      simp only [Instruction.perform, firstRead, secondRead, added, stored, ok_bind]
      rfl
  | concat target left right =>
      obtain ⟨first, firstRead, rest⟩ := exists_of_bind_eq_ok performed
      obtain ⟨second, secondRead, rest⟩ := exists_of_bind_eq_ok rest
      obtain ⟨joined, joins, rest⟩ := exists_of_bind_eq_ok rest
      obtain ⟨locals, stored, _⟩ := exists_of_bind_eq_ok rest
      obtain ⟨firstText, secondText, rfl, rfl, rfl⟩ := texts_of_joinStrictly joins
      have run : (carryOut station (.concat target left right)).runOn context =
          .done (.ok .next, { context with locals := locals }) := by
        simp only [carryOut, Routine.runOn_bind, runOn_loadLocal firstRead,
          runOn_loadLocal secondRead, Process.done_bind, runOn_storeLocal stored]
        rfl
      rw [run]
      intro machine _
      refine ⟨.next, { context with locals := locals }, machine.globals, ?_, rfl, rfl⟩
      simp only [Instruction.perform, firstRead, secondRead, joins, stored, ok_bind]
      rfl
  | move bank target source =>
      obtain ⟨value, valueRead, rest⟩ := exists_of_bind_eq_ok performed
      obtain ⟨locals, stored, _⟩ := exists_of_bind_eq_ok rest
      have run : (carryOut station (.move bank target source)).runOn context =
          .done (.ok .next, { context with locals := locals }) := by
        simp only [carryOut, Routine.runOn_bind, runOn_loadLocal valueRead, Process.done_bind,
          runOn_storeLocal stored]
        rfl
      rw [run]
      intro machine _
      refine ⟨.next, { context with locals := locals }, machine.globals, ?_, rfl, rfl⟩
      simp only [Instruction.perform, valueRead, stored, ok_bind]
      rfl
  | storeReturn bank source slot =>
      obtain ⟨value, valueRead, rest⟩ := exists_of_bind_eq_ok performed
      obtain ⟨results, stored, _⟩ := exists_of_bind_eq_ok rest
      have run : (carryOut station (.storeReturn bank source slot)).runOn context =
          .done (.ok .next, { context with results := results }) := by
        simp only [carryOut, Routine.runOn_bind, runOn_loadLocal valueRead, Process.done_bind,
          runOn_storeResult stored]
        rfl
      rw [run]
      intro machine _
      refine ⟨.next, { context with results := results }, machine.globals, ?_, rfl, rfl⟩
      simp only [Instruction.perform, valueRead, stored, ok_bind]
      rfl
  | finish =>
      exact fun machine _ => ⟨.stop .returned, context, machine.globals, rfl, rfl, rfl⟩
  | raise message =>
      exact fun machine _ => ⟨.stop .halted, _, machine.globals, rfl, rfl, rfl⟩
  | storeGlobal bank source slot =>
      obtain ⟨value, valueRead, _⟩ := exists_of_bind_eq_ok performed
      simp only [carryOut, Routine.runOn_bind, runOn_loadLocal valueRead, Process.done_bind]
      intro machine allows
      obtain ⟨_, _, _, performsHere⟩ := performs machine allows
      obtain ⟨same, sameRead, rest⟩ := exists_of_bind_eq_ok performsHere
      obtain ⟨globalsAfter, stored, _⟩ := exists_of_bind_eq_ok rest
      rw [valueRead] at sameRead
      cases sameRead
      have lenient := storeOrKeep_of_storeStrictly stored
      refine ⟨rfl, (.ok .next, context), ?_, .next, context, globalsAfter, ?_, rfl, ?_⟩
      · simp only [lenient]
        rfl
      · simp only [Instruction.perform, valueRead, stored, ok_bind]
        rfl
      · simp only [lenient]
  | loadGlobal bank target slot =>
      intro machine allows
      obtain ⟨_, _, _, performsHere⟩ := performs machine allows
      obtain ⟨value, valueRead, rest⟩ := exists_of_bind_eq_ok performsHere
      obtain ⟨locals, stored, _⟩ := exists_of_bind_eq_ok rest
      have loaded := load_of_readStrictly valueRead
      refine ⟨rfl, (.ok .next, { context with locals := locals }), ?_, .next,
        { context with locals := locals }, machine.globals, ?_, rfl, rfl⟩
      · have resumed : (do
            storeLocal bank target value
            return Continuation.next : Routine Continuation).runOn context =
              .done (.ok .next, { context with locals := locals }) := by
          rw [Routine.runOn_bind, runOn_storeLocal stored]
          rfl
        simp only [loaded]
        exact resumed
      · simp only [Instruction.perform, valueRead, stored, ok_bind]
        rfl
  | call package function arguments returns =>
      cases noCall
  | sleep milliseconds =>
      exact fun machine _ => ⟨.next, context, machine.globals, rfl, rfl, rfl⟩

/-! ## Runs of checked instructions -/

/-- The property of a machine that its global memory has the sizes of a footprint. -/
def Footprint.Holds (footprint : Footprint) : Machine → Prop :=
  Machine.HoldsGlobals fun globals => globals.sizes = footprint.globals

/-- The discipline that asks nothing but to keep the sizes of global memory. -/
def Footprint.keepingSizes (footprint : Footprint) : Discipline Unit Machine Unit :=
  .keepingGlobals fun globals => globals.sizes = footprint.globals

/-- While a list of instructions is carried out from a context, other threads may change whatever
they like as long as global memory keeps its sizes.  The rests of the list that are reached, each
with the context on which it is carried out. -/
inductive Passes (station : Station) (footprint : Footprint) (instructions : List Instruction)
    (start : Context) : List Instruction → Context → Prop
  | start : Passes station footprint instructions start instructions start
  | next {instruction : Instruction} {rest : List Instruction} {context after : Context} :
      Passes station footprint instructions start (instruction :: rest) context →
      ((carryOut station instruction).runOn context).MayEnd footprint.Holds (.ok .next, after) →
      Passes station footprint instructions start rest after

/-- An instruction is carried out soundly on a context that fits a footprint. -/
structure Instruction.Sound (footprint : Footprint) (station : Station)
    (instruction : Instruction) (context : Context) : Prop where
  /-- Every step keeps the sizes of global memory, and the registers of the context keep theirs
  however the instruction ends. -/
  keeps : (carryOut station instruction).Keeps footprint.Holds context
    (fun _ after => footprint.Fits after) footprint.Fits
  /-- An instruction other than a call does at one moment what the strict instruction does, without
  a violation. -/
  acts : instruction.isCall = false →
    ((carryOut station instruction).runOn context).ActsAs footprint.Holds
      (instruction.Performs context)

theorem Footprint.exists_holds (footprint : Footprint) : ∃ machine, footprint.Holds machine :=
  ⟨{ (default : Machine) with globals := .ofSizes footprint.globals },
    RegisterFile.sizes_ofSizes footprint.globals⟩

theorem Footprint.Fits.sameSizes {footprint : Footprint} {before after : Context}
    (fits : footprint.Fits before) (same : before.SameSizes after) : footprint.Fits after :=
  ⟨same.1.trans fits.1, same.2.trans fits.2⟩

/-- A checked instruction is sound on every context that fits. -/
theorem Instruction.sound_of_check {footprint : Footprint} {instruction : Instruction}
    (accepted : footprint.check instruction = .ok ())
    (tasks : station.TasksStay footprint.keepingSizes () ())
    (fits : footprint.Fits context) : instruction.Sound footprint station context := by
  have performs : instruction.isCall = false → ∀ machine, footprint.Holds machine →
      ∃ continuation after globals,
        instruction.perform context machine.globals = .ok (continuation, after, globals) := by
    intro noCall machine holds
    obtain ⟨continuation, after, globals, performed, _⟩ :=
      Instruction.exists_perform accepted noCall fits holds
    exact ⟨continuation, after, globals, performed⟩
  have acts : instruction.isCall = false →
      ((carryOut station instruction).runOn context).ActsAs footprint.Holds
        (instruction.Performs context) :=
    fun noCall =>
      carryOut_actsAs station noCall footprint.exists_holds (performs noCall)
  refine ⟨?_, acts⟩
  cases noCall : instruction.isCall with
  | true =>
      cases instruction with
      | call package function arguments returns =>
          unfold carryOut
          have called := callFunction_stays (Discipline.keepingGlobals_tolerates _).mild tasks
            (Station.ensureInitialized_keeps tasks).gates package function arguments returns context
          have fitting : (callFunction station package function arguments returns).Keeps
              footprint.Holds context (fun _ after => footprint.Fits after) footprint.Fits :=
            called.weaken (fun _ _ same => fits.sameSizes same) fun _ same => fits.sameSizes same
          exact Routine.Stays.bind fitting fun _ after fitsAfter => Routine.stays_pure fitsAfter
      | _ =>
          cases noCall
  | false =>
      have ends : ((carryOut station instruction).runOn context).Keeps footprint.Holds
          fun answer => ∃ continuation, answer.1 = .ok continuation ∧ footprint.Fits answer.2 := by
        refine (acts noCall).keeps footprint.exists_holds ?_
        rintro before answer later holds ⟨continuation, after, globals, performed, rfl, rfl⟩
        obtain ⟨_, _, _, samePerformed, fitsAfter, sized⟩ :=
          Instruction.exists_perform accepted noCall fits holds
        rw [performed] at samePerformed
        cases samePerformed
        exact ⟨sized, continuation, rfl, fitsAfter⟩
      refine Process.Follows.weaken ends ?_
      rintro ⟨outcome, after⟩ _ ⟨same, continuation, rfl, fitsAfter⟩
      exact ⟨same, fitsAfter⟩

/-- Whatever a run of checked instructions comes to fits the footprint, and is a part of the list.
-/
theorem Passes.fits {footprint : Footprint} {instructions rest : List Instruction}
    {start context : Context}
    (accepted : ∀ instruction ∈ instructions, footprint.check instruction = .ok ())
    (tasks : station.TasksStay footprint.keepingSizes () ())
    (startFits : footprint.Fits start)
    (passes : Passes station footprint instructions start rest context) :
    footprint.Fits context ∧ ∀ instruction ∈ rest, instruction ∈ instructions := by
  induction passes with
  | start =>
      exact ⟨startFits, fun _ member => member⟩
  | @next instruction rest context after _ ends inductionHypothesis =>
      obtain ⟨fitsBefore, members⟩ := inductionHypothesis
      have isAccepted := accepted instruction (members instruction List.mem_cons_self)
      have sound := Instruction.sound_of_check isAccepted tasks fitsBefore
      have fitsAfter : footprint.Fits after := sound.keeps.reached ends
      exact ⟨fitsAfter, fun other member => members other (List.mem_cons_of_mem _ member)⟩

/-- A list of checked instructions keeps the sizes of all registers from its beginning to its end.
-/
theorem carryOutAll_keeps_sizes {footprint : Footprint} {instructions : List Instruction}
    (accepted : ∀ instruction ∈ instructions, footprint.check instruction = .ok ())
    (tasks : station.TasksStay footprint.keepingSizes () ())
    (fits : footprint.Fits context) :
    (carryOutAll station instructions).Keeps footprint.Holds context
      (fun _ after => footprint.Fits after) footprint.Fits := by
  induction instructions generalizing context with
  | nil =>
      exact Routine.stays_pure fits
  | cons instruction rest inductionHypothesis =>
      unfold carryOutAll
      have sound :=
        Instruction.sound_of_check (accepted instruction List.mem_cons_self) tasks fits
      refine Routine.Stays.bind sound.keeps fun continuation after fitsAfter => ?_
      cases continuation with
      | next =>
          exact inductionHypothesis
            (fun other member => accepted other (List.mem_cons_of_mem _ member)) fitsAfter
      | stop exit =>
          exact Routine.stays_pure fitsAfter

/-- Checking is sound for execution.  A list of instructions each of which has been checked against
the sizes of the registers is carried out on registers of these sizes, with whatever content, so
that all sizes stay as they are, after every instruction and also when a call fails; and whatever
instruction the list comes to, it is carried out without an access past the end of a bank, without
an addition that is not defined, and without a store of a value of another bank, unless it is a
call. -/
theorem checked_instructions_sound {footprint : Footprint} {instructions : List Instruction}
    (accepted : ∀ instruction ∈ instructions, footprint.check instruction = .ok ())
    (setup : Setup) (bodies : Table BodyKey (List Instruction)) (thread : ThreadId) (depth : Nat)
    {start : Context} (fits : footprint.Fits start) :
    (carryOutAll (setup.station (interpreter bodies) thread depth) instructions).Keeps
        footprint.Holds start (fun _ after => footprint.Fits after) footprint.Fits ∧
      ∀ instruction rest context,
        Passes (setup.station (interpreter bodies) thread depth) footprint instructions start
            (instruction :: rest) context →
          footprint.Fits context ∧
            instruction.Sound footprint (setup.station (interpreter bodies) thread depth)
              context := by
  have tasks : (setup.station (interpreter bodies) thread depth).TasksStay
      footprint.keepingSizes () () := by
    refine (interpreter_keepsToStation bodies).tasks_stay setup thread (fun _ => True) ?_ ?_ ?_
      depth () trivial
    · exact fun _ _ => Discipline.keepingGlobals_tolerates _
    · exact fun _ tasks _ _ => Station.ensureInitialized_keeps (tasks () trivial)
    intro _ _ slot value
    refine storeGlobal_keeps ?_ slot value
    intro globals slot value after sized stored
    rw [RegisterFile.sizes_of_storeOrKeep stored]
    exact sized
  refine ⟨carryOutAll_keeps_sizes accepted tasks fits, ?_⟩
  intro instruction rest context passes
  obtain ⟨fitsHere, members⟩ := passes.fits accepted tasks fits
  have isAccepted := accepted instruction (members instruction List.mem_cons_self)
  exact ⟨fitsHere, Instruction.sound_of_check isAccepted tasks fitsHere⟩

/-- The store of a return value that follows on a literal, in a worker with one integer register,
one integer to return, and one global integer. -/
theorem return_of_literal_sound :
    Instruction.Sound ⟨{ longs := 1 }, { longs := 1 }, { longs := 1 }⟩
      ((default : Setup).station (interpreter .empty) 0 1) (.storeReturn .int 0 0)
      { (default : Context) with
        locals := { longs := #[7] }
        results := .ofSizes { longs := 1 } } := by
  have accepted : ∀ instruction ∈ [Instruction.constant 0 (.int 7), .storeReturn .int 0 0],
      (⟨{ longs := 1 }, { longs := 1 }, { longs := 1 }⟩ : Footprint).check instruction =
        .ok () := by
    intro instruction member
    rcases List.mem_cons.mp member with rfl | member
    · rfl
    · rcases List.mem_singleton.mp member with rfl
      rfl
  have fits : Footprint.Fits ⟨{ longs := 1 }, { longs := 1 }, { longs := 1 }⟩
      { (default : Context) with
        locals := .ofSizes { longs := 1 }
        results := .ofSizes { longs := 1 } } :=
    ⟨rfl, rfl⟩
  have sound := checked_instructions_sound accepted default .empty 0 1 fits
  exact (sound.2 _ _ _ (.next .start .done)).2

end WorkerMachine.Script
