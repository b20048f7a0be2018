import WorkerMachine.Proofs.Failing.Inits
import WorkerMachine.Proofs.Registers.Lowering
import WorkerMachine.Proofs.Script.Rejection
/-!
# Calls by name that are rejected

A call by name looks for the package, for the function, and at the number of arguments, in this
order, before it comes to the gate of the package.  The kinds of the arguments are looked at only
behind the gate, from the first argument on, and before there is a response or a worker.
-/

namespace WorkerMachine

namespace Station

/-! ## Arguments of the wrong kind -/

variable {unit : Callable} {arguments : List Value} {position : Nat} {declared actual : Bank}

theorem run_callValues_of_mismatch (station : Station) (sound : unit.params.Sound)
    (sameLength : unit.params.length = arguments.length)
    (first : unit.params.FirstMismatch arguments position declared actual) (parent : Context) :
    (station.callValues unit parent arguments).run =
      .done (.error (.fault (.bankMismatch position declared actual))) := by
  unfold callValues
  rw [Callable.checkArity, if_pos sameLength, Marshalling.lower_of_mismatch sound sameLength first]
  rfl

/-- A call with arguments of the right kinds begins with a step, which is the opening of a response.
-/
theorem exists_step_of_callValues (station : Station) (sound : unit.params.Sound)
    (matching : arguments.map Value.bank = unit.params.banks) (parent : Context) :
    ∃ ready update next,
      (station.callValues unit parent arguments).run = .step ready update next := by
  obtain ⟨source, lowered, _, _⟩ := Marshalling.exists_lower sound matching
  have sameLength : unit.params.length = arguments.length := by
    have lengths := congrArg List.length matching
    simpa [Layout.banks, Layout.length] using lengths.symm
  have sameIndices : unit.params.length = unit.params.indices.length := by
    simp [Layout.length, Layout.indices]
  unfold callValues dispatch
  rw [Callable.checkArity, if_pos sameLength, lowered, Callable.checkArity, if_pos sameIndices]
  exact ⟨_, _, _, rfl⟩

/-! ## The order of the checks -/

variable {station : Station} {parent : Context} {package function : String} {found : Package}

/-- A call by name of an unknown package fails before it takes a step. -/
theorem failsAtOnce_of_package (isUnknown : station.program.packages.get? package = none) :
    (liftM (station.callNamedIn parent package function arguments) : Routine _).FailsAtOnce parent
      (.packageNotFound package) := by
  unfold Routine.FailsAtOnce callNamedIn Program.package
  rw [isUnknown]
  rfl

/-- A call by name of an unknown function fails before it takes a step. -/
theorem failsAtOnce_of_function (isPackage : station.program.packages.get? package = some found)
    (isUnknown : found.functions.get? function = none) :
    (liftM (station.callNamedIn parent package function arguments) : Routine _).FailsAtOnce parent
      (.functionNotFound package function) := by
  have notFound : Program.function found package function =
      .error (.functionNotFound package function) := by
    rw [Program.function, isUnknown]
  unfold Routine.FailsAtOnce callNamedIn Program.package
  rw [isPackage]
  change (liftM (Effect.ofExcept (Program.function found package function) >>= _ : Effect _) :
    Routine _).runOn parent = _
  rw [notFound]
  rfl

section Found

variable (isPackage : station.program.packages.get? package = some found)
  (isFunction : found.functions.get? function = some unit)

include isPackage isFunction

/-- A call by name with a wrong number of arguments fails before it takes a step. -/
theorem failsAtOnce_of_arity (wrong : unit.params.length ≠ arguments.length) :
    (liftM (station.callNamedIn parent package function arguments) : Routine _).FailsAtOnce parent
      (.arityMismatch unit.qualifiedName unit.params.length arguments.length) := by
  have isFound : station.program.package package = .ok found := by rw [Program.package, isPackage]
  have isUnit : Program.function found package function = .ok unit := by
    rw [Program.function, isFunction]
  unfold Routine.FailsAtOnce
  rw [Routine.runOn_effect, Script.run_callNamedIn_of_arity isFound isUnit parent wrong]
  rfl

/-- A call by name with the right number of arguments passes the gate, and then calls the unit. -/
theorem runOn_callNamedIn (sameLength : unit.params.length = arguments.length) :
    (liftM (station.callNamedIn parent package function arguments) : Routine _).runOn parent =
      (station.ensureInitialized found parent).run.bind fun
        | .ok () => (liftM (station.callValues unit parent arguments) : Routine _).runOn parent
        | .error interruption => .done (.error interruption, parent) := by
  have isFound : station.program.package package = .ok found := by rw [Program.package, isPackage]
  have isUnit : Program.function found package function = .ok unit := by
    rw [Program.function, isFunction]
  rw [Routine.runOn_effect, callNamedIn_eq_gate isFound isUnit sameLength, Process.bind_assoc]
  congr 1
  funext outcome
  cases outcome with
  | ok _ => exact (Routine.runOn_effect ..).symm
  | error interruption => rfl

/-- With an argument of the wrong kind nothing comes after the gate. -/
theorem runOn_callNamedIn_of_mismatch (sound : unit.params.Sound)
    (sameLength : unit.params.length = arguments.length)
    (first : unit.params.FirstMismatch arguments position declared actual) :
    (liftM (station.callNamedIn parent package function arguments) : Routine _).runOn parent =
      (station.ensureInitialized found parent).run.bind fun outcome =>
        .done (outcome.bind fun _ => .error (.fault (.bankMismatch position declared actual)),
          parent) := by
  rw [runOn_callNamedIn isPackage isFunction sameLength]
  congr 1
  funext outcome
  cases outcome with
  | ok _ =>
      dsimp only
      rw [Routine.runOn_effect, station.run_callValues_of_mismatch sound sameLength first]
      rfl
  | error interruption => rfl

end Found

/-- How calls by name below a context are rejected.  An unknown package, an unknown function and a
wrong number of arguments, in this order, let the call fail before it takes a step: nobody has
passed a gate then, the machine is what it was, and so is the context.  No other call fails at once.
With the right number of arguments the gate is passed first, and what it fails with is the answer;
only then a first argument of the wrong kind is told, without another step after those of the gate.
Otherwise the call goes on to a response. -/
theorem callNamedIn_rejects (station : Station)
    (laidOut : ∀ package found function unit, station.program.packages.get? package = some found →
      found.functions.get? function = some unit → unit.params.Sound)
    (parent : Context) (package function : String) (arguments : List Value) :
    let call : Routine (List Value) := liftM (station.callNamedIn parent package function arguments)
    (station.program.packages.get? package = none →
      call.FailsAtOnce parent (.packageNotFound package)) ∧
    ∀ found, station.program.packages.get? package = some found →
      (found.functions.get? function = none →
        call.FailsAtOnce parent (.functionNotFound package function)) ∧
      ∀ unit, found.functions.get? function = some unit →
        (unit.params.length ≠ arguments.length → call.FailsAtOnce parent
          (.arityMismatch unit.qualifiedName unit.params.length arguments.length)) ∧
        (unit.params.length = arguments.length →
          (∀ fault, ¬call.FailsAtOnce parent fault) ∧
          (call.runOn parent = (station.ensureInitialized found parent).run.bind fun
            | .ok () => (liftM (station.callValues unit parent arguments) : Routine _).runOn parent
            | .error interruption => .done (.error interruption, parent)) ∧
          (∀ position declared actual,
            unit.params.FirstMismatch arguments position declared actual →
              call.runOn parent = (station.ensureInitialized found parent).run.bind fun outcome =>
                .done (outcome.bind fun _ => .error (.fault
                  (.bankMismatch position declared actual)), parent)) ∧
          (unit.params.banks ≠ arguments.map Value.bank → ∃ position declared actual,
            unit.params.FirstMismatch arguments position declared actual) ∧
          (unit.params.banks = arguments.map Value.bank → ∃ ready update next,
            (station.callValues unit parent arguments).run = .step ready update next)) := by
  intro call
  refine ⟨failsAtOnce_of_package, fun found isPackage =>
    ⟨failsAtOnce_of_function isPackage, fun unit isFunction =>
      ⟨failsAtOnce_of_arity isPackage isFunction, fun sameLength => ?_⟩⟩⟩
  have sound := laidOut package found function unit isPackage isFunction
  refine ⟨fun fault atOnce => ?_, runOn_callNamedIn isPackage isFunction sameLength,
    fun position declared actual first =>
      runOn_callNamedIn_of_mismatch isPackage isFunction sound sameLength first,
    Layout.exists_firstMismatch sameLength,
    fun matching => station.exists_step_of_callValues sound matching.symm parent⟩
  obtain ⟨ready, update, next, begins⟩ := exists_step_of_ensureInitialized station found parent
  have stepped : call.runOn parent = _ := runOn_callNamedIn isPackage isFunction sameLength
  rw [begins] at stepped
  rw [Routine.FailsAtOnce, stepped] at atOnce
  cases atOnce

def calculator : Package where
  name := "calc"
  init := some ⟨"calc", initUnitName, .init, .empty, .empty, ⟨defaultWorkerName, 0, .zero⟩, []⟩
  functions := .ofList [("add", ⟨"calc", "add", .function,
    ⟨[.int, .int], [⟨.int, 0⟩, ⟨.int, 1⟩], { longs := 2 }⟩, ⟨[.int], [⟨.int, 0⟩], { longs := 1 }⟩,
    ⟨defaultWorkerName, 0, { longs := 3 }⟩, []⟩)]
  globals := .empty

def calculatorStation : Station :=
  Setup.station ⟨.ofPackages [calculator] .zero, .rehearsed .inline, .full⟩
    (Script.interpreter (.ofList [(⟨"calc", initUnitName, 0⟩, []), (⟨"calc", "add", 0⟩, [])])) 0 2

/-- Four calls of the calculator that are rejected.  The first three leave every machine as it is.  The
last one has a text as its second argument: on a fresh machine it initializes the package, and comes to
no response and no worker but those of the init unit. -/
theorem callNamedIn_rejects_of_calculator :
    let opened := Machine.inArena Machine.ownArena
      (fun records => records.register ⟨none, .running, Arena.rootLabel⟩)
      (Machine.start calculatorStation.program .empty)
    let context := Context.root opened.1 none Machine.ownArena Machine.ownProperties
    let call (package function : String) (arguments : List Value) : Routine (List Value) :=
      liftM (calculatorStation.callNamedIn context package function arguments)
    (call "nope" "add" [.int 1, .int 2]).FailsAtOnce context (.packageNotFound "nope") ∧
      (call "calc" "mul" []).FailsAtOnce context (.functionNotFound "calc" "mul") ∧
      (call "calc" "add" [.int 2]).FailsAtOnce context (.arityMismatch "calc:add" 2 1) ∧
      ∃ after,
        ((call "calc" "add" [.int 1, .text "2"]).runOn context).runAlone opened.2 =
          some ((.error (.fault (.bankMismatch 1 .int .text)), context), after) ∧
        (calculatorStation.ensureInitialized calculator context).run.runAlone opened.2 =
          some (.ok (), after) ∧
        after.tallies.inits = 1 ∧ after.tallies.responses = 1 ∧ after.tallies.contexts = 1 := by
  intro opened context call
  have laidOut : ∀ package found function unit,
      calculatorStation.program.packages.get? package = some found →
        found.functions.get? function = some unit → unit.params.Sound := by
    intro package found function unit isPackage isFunction
    obtain ⟨_, isFound⟩ := Option.ite_none_right_eq_some.mp isPackage
    cases isFound
    obtain ⟨_, isUnit⟩ := Option.ite_none_right_eq_some.mp isFunction
    cases isUnit
    exact @Layout.sound_of_ofTypes [.int, .int] _ rfl
  have rejects := callNamedIn_rejects calculatorStation laidOut context
  obtain ⟨unit, isUnit, twoParams, named⟩ : ∃ unit, calculator.functions.get? "add" = some unit ∧
      unit.params.banks = [.int, .int] ∧ unit.qualifiedName = "calc:add" :=
    ⟨_, rfl, rfl, rfl⟩
  have length : unit.params.length = 2 := by
    have sameLength := congrArg List.length twoParams
    simpa [Layout.banks, Layout.length] using sameLength
  refine ⟨(rejects "nope" "add" _).1 rfl, ((rejects "calc" "mul" _).2 calculator rfl).1 rfl, ?_, ?_⟩
  · have wrongCount := (((rejects "calc" "add" [.int 2]).2 calculator rfl).2 unit isUnit).1
    rw [length, named] at wrongCount
    exact wrongCount (by decide)
  · obtain ⟨_, _, mismatch, _⟩ :=
      (((rejects "calc" "add" [.int 1, .text "2"]).2 calculator rfl).2 unit isUnit).2 length
    have ran := mismatch 1 .int .text ⟨by rw [twoParams]; rfl, rfl, by decide, fun earlier isFirst => by
      obtain rfl := Nat.lt_one_iff.mp isFirst
      rw [twoParams]
      rfl⟩
    have passes : ((calculatorStation.ensureInitialized calculator context).run.runAlone opened.2).map
        (fun ran => (ran.1.toOption, ran.2.tallies.inits, ran.2.tallies.responses,
          ran.2.tallies.contexts)) = some (some (), 1, 1, 1) := by
      decide +kernel
    obtain ⟨⟨outcome, after⟩, initialized, counted⟩ := Option.map_eq_some_iff.mp passes
    obtain ⟨isOk, inits, responses, contexts⟩ : outcome.toOption = some () ∧
        after.tallies.inits = 1 ∧ after.tallies.responses = 1 ∧ after.tallies.contexts = 1 := by
      simpa using counted
    cases outcome with
    | error interruption =>
        cases isOk
    | ok _ =>
        refine ⟨after, ?_, initialized, inits, responses, contexts⟩
        rw [ran, Process.runAlone_bind, initialized]
        rfl

end Station

end WorkerMachine
