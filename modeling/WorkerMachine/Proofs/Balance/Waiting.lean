import WorkerMachine.Proofs.Balance.Inits
/-!
# Work that waits for its calls

A thread waits for every call that it makes if it makes waiting calls only: with registers, with values
or by name, from contexts that run.  Between its calls it may do whatever it likes that is not accounted
for.  However its calls end, it has in hand afterwards what it had before.
-/

namespace WorkerMachine

open Balance

variable {program : Program} {base : Machine} {token : Hand} {station : Station}
  {homes : List ContextId} {Answer First Second : Type}

def Callable.Reads (unit : Callable) (sizes : BankSizes) (arguments : List Nat) : Prop :=
  ∀ entry ∈ unit.params.banks.zip arguments, entry.2 < sizes.get entry.1

instance (unit : Callable) (sizes : BankSizes) (arguments : List Nat) :
    Decidable (unit.Reads sizes arguments) :=
  inferInstanceAs (Decidable (∀ entry ∈ unit.params.banks.zip arguments, entry.2 < sizes.get entry.1))

theorem Callable.Sound.seedsAll_of_reads {unit : Callable} (sound : unit.Sound)
    {source : RegisterFile} {arguments : List Nat} (reads : unit.Reads source.sizes arguments) :
    unit.SeedsAll source arguments :=
  fun worker member =>
    Marshalling.exists_seed_of_readable sound.params reads (sound.roomy worker member)

/-! ## Any waiting calls -/

/-- A thread that works from a station waits for every call that it makes.  The calls are made into the
program, from contexts of the machine's own that are named in `homes` or from roots of their own, and the
operands of calls with registers exist.  The steps between the calls concern nothing that is accounted
for.  In the end there is an answer of some kind. -/
inductive Station.Waits (station : Station) (homes : List ContextId) (kind : Answer → Prop) :
    Work Answer → Prop
  | ended {answer : Answer} : kind answer → Waits station homes kind (.done answer)
  | aside {ready : Machine → Bool} {update : Machine → Machine} {next : Machine → Work Answer} :
      (∀ machine, Immaterial machine (update machine)) →
      (∀ machine, Waits station homes kind (next machine)) →
      Waits station homes kind (.step ready update next)
  | slept {milliseconds : Nat} {next : Work Answer} :
      Waits station homes kind next → Waits station homes kind (.sleep milliseconds next)
  | withRegisters {unit : Callable} {context : Context} {arguments returns : List Nat}
      {follow : Except Interruption Unit × Context → Work Answer} :
      station.program.Declares unit → context.arena = Machine.ownArena → context.id ∈ homes →
      unit.Reads context.locals.sizes arguments →
      (∀ outcome after, context.LeftAs after → after.locals.sizes = context.locals.sizes →
        Waits station homes kind (follow (outcome, after))) →
      Waits station homes kind
        (((station.callRegisters unit arguments returns).runOn context).bind follow)
  | withValues {unit : Callable} {parent : Context} {arguments : List Value}
      {follow : Except Interruption (List Value) → Work Answer} :
      station.program.Declares unit → parent.arena = Machine.ownArena → parent.id ∈ homes →
      (∀ outcome, Waits station homes kind (follow outcome)) →
      Waits station homes kind ((station.callValues unit parent arguments).run.bind follow)
  | byName {parent : Context} {package function : String} {arguments : List Value}
      {follow : Except Interruption (List Value) → Work Answer} :
      parent.arena = Machine.ownArena → parent.id ∈ homes →
      (∀ outcome, Waits station homes kind (follow outcome)) →
      Waits station homes kind
        ((station.callNamedIn parent package function arguments).run.bind follow)
  | fromRoot {package function : String} {arguments : List Value}
      {follow : Except Interruption (List Value) → Work Answer} :
      (∀ outcome, Waits station homes kind (follow outcome)) →
      Waits station homes kind ((station.callNamed package function arguments).run.bind follow)
  | initialized {name : String} {package : Package} {parent : Context}
      {follow : Except Interruption Unit → Work Answer} :
      station.program.package name = .ok package → parent.arena = Machine.ownArena →
      (∀ outcome, Waits station homes kind (follow outcome)) →
      Waits station homes kind ((station.ensureInitialized package parent).run.bind follow)

namespace Station.Waits

theorem bind {kind : Second → Prop} {between : First → Prop} {work : Work First}
    {follow : First → Work Second} (first : station.Waits homes between work)
    (second : ∀ answer, between answer → station.Waits homes kind (follow answer)) :
    station.Waits homes kind (work.bind follow) := by
  induction first with
  | ended isKind => exact second _ isKind
  | aside immaterial _ inductionHypothesis => exact .aside immaterial inductionHypothesis
  | slept _ inductionHypothesis => exact .slept inductionHypothesis
  | withRegisters declared isOwn member reads _ inductionHypothesis =>
    rw [Process.bind_assoc]
    exact .withRegisters declared isOwn member reads inductionHypothesis
  | withValues declared isOwn member _ inductionHypothesis =>
    rw [Process.bind_assoc]
    exact .withValues declared isOwn member inductionHypothesis
  | byName isOwn member _ inductionHypothesis =>
    rw [Process.bind_assoc]
    exact .byName isOwn member inductionHypothesis
  | fromRoot _ inductionHypothesis =>
    rw [Process.bind_assoc]
    exact .fromRoot inductionHypothesis
  | initialized isFound isOwn _ inductionHypothesis =>
    rw [Process.bind_assoc]
    exact .initialized isFound isOwn inductionHypothesis

theorem weaken {kind weaker : Answer → Prop} {work : Work Answer}
    (waits : station.Waits homes kind work) (implied : ∀ answer, kind answer → weaker answer) :
    station.Waits homes weaker work := by
  rw [← Process.bind_done work]
  exact waits.bind fun answer isKind => .ended (implied answer isKind)

theorem ensureInitialized {name : String} {package : Package} {parent : Context}
    (isFound : station.program.package name = .ok package)
    (isOwn : parent.arena = Machine.ownArena) :
    station.Waits homes (fun _ => True) (station.ensureInitialized package parent).run := by
  rw [← Process.bind_done (station.ensureInitialized package parent).run]
  exact .initialized isFound isOwn fun _ => .ended trivial

theorem callRegisters {unit : Callable} {context : Context} {arguments : List Nat}
    (declared : station.program.Declares unit) (isOwn : context.arena = Machine.ownArena)
    (isHome : context.id ∈ homes) (reads : unit.Reads context.locals.sizes arguments)
    (returns : List Nat) :
    station.Waits homes (fun answer => context.LeftAs answer.2 ∧
        answer.2.locals.sizes = context.locals.sizes)
      ((station.callRegisters unit arguments returns).runOn context) := by
  rw [← Process.bind_done ((station.callRegisters unit arguments returns).runOn context)]
  exact .withRegisters declared isOwn isHome reads fun _ _ left sized => .ended ⟨left, sized⟩

theorem of_callsByName {work : Work Answer} (calls : station.CallsByName work) :
    station.Waits homes (fun _ => True) work := by
  induction calls with
  | ended answer => exact .ended trivial
  | called package function arguments _ inductionHypothesis => exact .fromRoot inductionHypothesis

/-- A thread that waits for its calls, and that runs the contexts it calls from, has in hand in the end
what it had in the beginning. -/
theorem balances {kind : Answer → Prop} {work : Work Answer} (waits : station.Waits homes kind work)
    (tasks : station.BalancesTasks program base) (sound : program.Sound)
    (named : station.policy.NamesThreads) (accepts : ¬station.policy.TurnsAway)
    (isProgram : station.program = program)
    (runs : ∀ id ∈ homes, ∃ task?, token.held id = some ⟨.running, task?⟩) :
    work.Stays (.balancing program base) station.thread token kind := by
  subst isProgram
  induction waits with
  | ended isKind => exact Process.stays_done isKind
  | @aside ready update next immaterial _ inductionHypothesis =>
    refine fun machine hands fits holding =>
      ⟨fun _ => ⟨trivial, token, ?_, inductionHypothesis machine⟩, fun _ => trivial⟩
    rw [← holding, Function.update_eq_self]
    exact (immaterial machine).accounts fits
  | slept _ inductionHypothesis => exact inductionHypothesis
  | @withRegisters unit context arguments returns follow declared isOwn member reads _
      inductionHypothesis =>
    obtain ⟨task?, isHeld⟩ := runs _ member
    have called := Station.callRegisters_balances tasks sound named accepts declared isOwn isHeld
      arguments returns fun _ => (sound.of_declares declared).seedsAll_of_reads reads
    refine Process.Follows.bind called ?_
    rintro ⟨_ | _, after⟩ last reached
    · obtain ⟨_, left, sized, isLast⟩ := reached
      rw [isLast]
      exact inductionHypothesis _ after left sized
    · obtain ⟨left, sized, isLast⟩ := reached
      rw [isLast]
      exact inductionHypothesis _ after left sized
  | withValues declared isOwn member _ inductionHypothesis =>
    obtain ⟨task?, isHeld⟩ := runs _ member
    exact (Station.callValues_balances tasks sound named accepts declared isOwn isHeld _).run.bind
      fun outcome _ => inductionHypothesis outcome
  | byName isOwn member _ inductionHypothesis =>
    obtain ⟨task?, isHeld⟩ := runs _ member
    exact (Station.callNamedIn_balances tasks sound named accepts isOwn isHeld rfl _ _ _).run.bind
      fun outcome _ => inductionHypothesis outcome
  | fromRoot _ inductionHypothesis =>
    exact (Station.callNamed_balances tasks sound named accepts rfl _ _ _).run.bind
      fun outcome _ => inductionHypothesis outcome
  | @initialized name package _ _ isFound isOwn _ inductionHypothesis =>
    have isNamed : station.program.package package.name = .ok package := by
      rw [(sound name package isFound).1]
      exact isFound
    exact (Station.ensureInitialized_balances tasks sound named accepts isNamed isOwn).run.bind
      fun outcome _ => inductionHypothesis outcome

end Station.Waits

/-! ## Bodies that wait for their calls -/

/-- All bodies that an interpreter carries out for tasks of a program wait for their calls, which they
make from the contexts of the tasks, and leave these contexts as they have to. -/
def Interpreter.WaitsOnly (interpreter : Interpreter) (program : Program) : Prop :=
  ∀ (station : Station) (task : Task), station.program = program → program.Prepares task →
    station.Waits [task.context.id] (fun answer => task.context.LeftAs answer.2)
      ((interpreter station).runOn task.context)

section Threads

variable {setup : Setup} {interpreter : Interpreter} (waits : interpreter.WaitsOnly setup.program)
  (sound : setup.program.Sound) (named : setup.policy.NamesThreads)
  (accepts : ¬setup.policy.TurnsAway)

include waits sound named accepts

/-- On every station of a machine tasks are accounted for. -/
theorem Setup.station_balancesTasks (thread : ThreadId) (depth : Nat) :
    (setup.station interpreter thread depth).BalancesTasks setup.program base := by
  induction depth with
  | zero => exact fun _ _ _ => Effect.follows_stall fun _ _ _ _ => trivial
  | succ depth inductionHypothesis =>
    intro task token isHeld
    have isSetup := setup.toSetup_station interpreter thread depth
    have ofTask : ∀ id ∈ [task.context.id], ∃ task?,
        ((token.hold task.context.id (some ⟨.running, some task⟩)).add
          (Happening.tilt (.started task))).held id = some ⟨.running, task?⟩ := by
      intro id isHome
      rw [List.mem_singleton.mp isHome]
      exact ⟨_, Hand.held_hold_self ..⟩
    have carried := Station.carryOut_balances sound isHeld fun prepares =>
      (waits _ task (by rw [isSetup]) prepares).balances inductionHypothesis sound
        (by rw [isSetup]; exact named) (by rw [isSetup]; exact accepts) (by rw [isSetup]) ofTask
    rw [Setup.thread_station] at carried
    exact carried

end Threads

end WorkerMachine
