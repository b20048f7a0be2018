import WorkerMachine.Machine.Initialization
import WorkerMachine.Proofs.Clearance.Scripts
import WorkerMachine.Proofs.Process.Answering
import WorkerMachine.Proofs.Script.Rejection
/-!
# Calls into packages that have failed

Once the init of a package has failed, a call of one of its functions relies on nothing but that: it
comes to the gate, hands on the fault of the init, and starts nothing.
-/

namespace WorkerMachine

def Program.Offers (program : Program) (package function : String) (unit : Callable) : Prop :=
  ∃ found, program.package package = .ok found ∧
    Program.function found package function = .ok unit

/-- A call into a package as it should be made: of a function that exists, with as many arguments as
there are parameters, and for no more results than there are.  It is made by name, below a root of
its own or below a context, or by an instruction.  With the call goes what it amounts to when it is
interrupted. -/
inductive Program.CallInto (program : Program) (package : String) :
    {Answer : Type} → Work Answer → (Interruption → Answer) → Prop
  | named {station : Station} {function : String} {unit : Callable} {arguments : List Value} :
      station.program = program → program.Offers package function unit →
      unit.params.length = arguments.length →
      CallInto program package (station.callNamed package function arguments).run .error
  | namedIn {station : Station} {function : String} {unit : Callable} {arguments : List Value}
      (parent : Context) :
      station.program = program → program.Offers package function unit →
      unit.params.length = arguments.length →
      CallInto program package (station.callNamedIn parent package function arguments).run .error
  | scripted {station : Station} {function : String} {unit : Callable} {arguments returns : List Nat}
      (context : Context) :
      station.program = program → program.Offers package function unit →
      unit.params.length = arguments.length → returns.length ≤ unit.returns.length →
      CallInto program package
        ((Script.carryOut station (.call package function arguments returns)).runOn context)
        fun interruption => (.error interruption, context)

/-- The discipline of those who rely on nothing but a property of the state, and never wait. -/
abbrev Discipline.relyingOn {State : Type} (held : State → Prop) : Discipline Unit State Unit :=
  .limitedTo held (fun _ _ => True) fun _ => trivial

/-- Whoever relies on nothing but a property is sure of its answer as long as the property holds. -/
theorem Process.Follows.answers {State Answer : Type} {held : State → Prop}
    {process : Process State Answer} {goal : Answer → Prop}
    (follows : process.Follows (.relyingOn held) () () fun answer _ => goal answer) :
    process.Answers held goal := by
  induction process with
  | done answer =>
      exact follows
  | step ready update next inductionHypothesis =>
      intro state holds
      obtain ⟨taken, waits⟩ := follows state (fun _ => ()) holds rfl
      cases isReady : ready state with
      | false =>
          exact (waits isReady).elim
      | true =>
          obtain ⟨_, _, _, rest⟩ := taken isReady
          exact ⟨rfl, inductionHypothesis state rest⟩
  | sleep milliseconds next inductionHypothesis =>
      exact inductionHypothesis follows

namespace Station

variable {station : Station} {package function : String} {found : Package} {unit : Callable}
  {fault : Fault} {arguments : List Value}

/-- Below a context, a call by name into a package that has failed hands on the fault. -/
theorem callNamedIn_refused (isPackage : station.program.package package = .ok found)
    (isNamed : found.name = package)
    (isFunction : Program.function found package function = .ok unit)
    (arity : unit.params.length = arguments.length) (parent : Context) :
    (station.callNamedIn parent package function arguments).Follows
      (.relyingOn (Machine.Settled package (.error fault))) () () (fun _ _ => False)
      fun interruption _ => interruption = .fault fault := by
  have passed : (station.ensureInitialized found parent).Follows
      (.relyingOn (Machine.Settled package (.error fault))) () () (fun _ _ => False)
      fun interruption _ => interruption = .fault fault := by
    rw [← isNamed]
    refine Effect.Follows.weaken (ensureInitialized_settled parent) ?_ ?_
    · intro _ _ never
      cases never
    · rintro _ _ ⟨_, same, rfl⟩
      cases same
      rfl
  have checked : unit.checkArity arguments.length = .ok () := by
    unfold Callable.checkArity
    rw [if_pos arity]
  unfold callNamedIn
  rw [isPackage]
  change (Effect.ofExcept (Program.function found package function) >>= _ : Effect _).Follows ..
  rw [isFunction]
  change (Effect.ofExcept (unit.checkArity arguments.length) >>= _ : Effect _).Follows ..
  rw [checked]
  exact passed.bind fun _ _ never => never.elim

theorem callNamed_refused (isPackage : station.program.package package = .ok found)
    (isNamed : found.name = package)
    (isFunction : Program.function found package function = .ok unit)
    (arity : unit.params.length = arguments.length) :
    (station.callNamed package function arguments).Follows
      (.relyingOn (Machine.Settled package (.error fault))) () () (fun _ _ => False)
      fun interruption _ => interruption = .fault fault := by
  have registered : ∀ record, (registerContext Machine.ownArena record).Follows
      (.relyingOn (Machine.Settled package (.error fault))) () () (fun _ _ => True)
      fun interruption _ => interruption = .fault fault :=
    fun record => Effect.follows_atomically fun _ _ settled _ => ⟨trivial, (), settled, trivial⟩
  have opened : (openRoot Machine.ownArena Machine.ownProperties).Follows
      (.relyingOn (Machine.Settled package (.error fault))) () () (fun _ _ => True)
      fun interruption _ => interruption = .fault fault :=
    (registered _).bind fun _ _ _ => Effect.follows_pure trivial
  unfold callNamed
  refine opened.bind fun root _ _ => ?_
  refine Effect.Follows.followedBy (callNamedIn_refused isPackage isNamed isFunction arity root) ?_
  intro outcome _ reached
  exact Process.follows_modify fun _ _ settled _ => ⟨trivial, (), settled, reached⟩

end Station

/-- An instruction that calls into a package that has failed hands on the fault. -/
theorem Script.call_refused {station : Station} {package function : String} {found : Package}
    {unit : Callable} {fault : Fault} {arguments returns : List Nat}
    (isPackage : station.program.package package = .ok found) (isNamed : found.name = package)
    (isFunction : Program.function found package function = .ok unit)
    (enough : returns.length ≤ unit.returns.length) (context : Context) :
    ((carryOut station (.call package function arguments returns)).runOn context).Follows
      (.relyingOn (Machine.Settled package (.error fault))) () ()
      fun answer _ => answer = (.error (.fault fault), context) := by
  rw [runOn_call isPackage isFunction, if_neg (Nat.not_lt.mpr enough), ← isNamed]
  refine Process.Follows.bind (Station.ensureInitialized_settled context) ?_
  intro outcome _ reached
  cases outcome with
  | ok _ =>
      cases reached
  | error interruption =>
      obtain ⟨_, same, rfl⟩ := reached
      cases same
      rfl

/-- A call into a package that has failed amounts to the fault of the init, and nothing can keep it
from that. -/
theorem Program.CallInto.answers {program : Program} (sound : program.Sound) {package : String}
    {Answer : Type} {call : Work Answer} {failing : Interruption → Answer}
    (into : program.CallInto package call failing) (fault : Fault) :
    call.Answers (Machine.Settled package (.error fault))
      fun answer => answer = failing (.fault fault) := by
  have interrupted {Answer : Type} {effect : Effect Answer}
      (follows : effect.Follows (.relyingOn (Machine.Settled package (.error fault))) () ()
        (fun _ _ => False) fun interruption _ => interruption = .fault fault) :
      effect.run.Answers (Machine.Settled package (.error fault))
        fun answer => answer = .error (.fault fault) := by
    refine Process.Follows.answers (Process.Follows.weaken follows ?_)
    intro outcome _ reached
    cases outcome with
    | ok _ => exact reached.elim
    | error interruption => exact congrArg Except.error reached
  cases into with
  | named sameProgram offers arity =>
      subst sameProgram
      obtain ⟨found, isPackage, isFunction⟩ := offers
      exact interrupted
        (Station.callNamed_refused isPackage (sound _ _ isPackage).1 isFunction arity)
  | namedIn parent sameProgram offers arity =>
      subst sameProgram
      obtain ⟨found, isPackage, isFunction⟩ := offers
      exact interrupted
        (Station.callNamedIn_refused isPackage (sound _ _ isPackage).1 isFunction arity parent)
  | scripted context sameProgram offers arity enough =>
      subst sameProgram
      obtain ⟨found, isPackage, isFunction⟩ := offers
      exact Process.Follows.answers
        (Script.call_refused isPackage (sound _ _ isPackage).1 isFunction enough context)

end WorkerMachine
