import WorkerMachine.Proofs.Balance.Accounts
import WorkerMachine.Proofs.Clearance.Tasks
import WorkerMachine.Proofs.Invocation.Waiting
import WorkerMachine.Proofs.Settling.Steps
/-!
# Steps that are accounted for

What the atomic steps of a machine do to the hand of the thread that takes them.
-/

namespace WorkerMachine

open Balance

open Settling (Active)

/-- The discipline of threads whose hands account for what they have made of a machine since it was like
`base`. -/
def Discipline.balancing (program : Program) (base : Machine) : Discipline ThreadId Machine Hand where
  fits := Accounts program base
  permits := fun _ _ => True
  excuses := fun _ _ _ => True
  permits_refl := fun _ => trivial

variable {Answer : Type} {program : Program} {base machine later : Machine} {thread : ThreadId}
  {token : Hand} {id : ContextId} {holding : Holding} {task : Task}

/-! ## Following the discipline -/

theorem Process.follows_accounting {operation : Machine → Answer × Machine}
    {goal : Answer → Hand → Prop}
    (reached : ∀ machine, Known program base machine token →
      ∃ after, Exchanges program base machine (operation machine).2 thread token after ∧
        goal (operation machine).1 after) :
    (atomically operation).Follows (.balancing program base) thread token goal := by
  refine follows_atomically fun machine hands fits holding => ?_
  obtain ⟨after, exchanges, reachedGoal⟩ := reached machine ⟨hands, thread, fits, holding⟩
  exact ⟨trivial, after, exchanges hands fits holding, reachedGoal⟩

theorem Process.follows_accounting_modify {update : Machine → Machine} {after : Hand}
    (reached : ∀ machine, Known program base machine token →
      Exchanges program base machine (update machine) thread token after) :
    (modify update).Follows (.balancing program base) thread token fun _ last => last = after :=
  follows_modify fun machine hands fits holding =>
    ⟨trivial, after, reached machine ⟨hands, thread, fits, holding⟩ hands fits holding, rfl⟩

theorem Effect.follows_accounting {operation : Machine → Answer × Machine}
    {goal : Answer → Hand → Prop} {upset : Interruption → Hand → Prop}
    (reached : ∀ machine, Known program base machine token →
      ∃ after, Exchanges program base machine (operation machine).2 thread token after ∧
        goal (operation machine).1 after) :
    (atomically operation).Follows (.balancing program base) thread token goal upset :=
  follows_work (Process.follows_accounting reached)

theorem Effect.follows_accounting_modify {update : Machine → Machine} {after : Hand}
    {upset : Interruption → Hand → Prop}
    (reached : ∀ machine, Known program base machine token →
      Exchanges program base machine (update machine) thread token after) :
    (modify update).Follows (.balancing program base) thread token (fun _ last => last = after)
      upset :=
  follows_work (Process.follows_accounting_modify reached)

/-- What a thread knows before a step of its own it may rely on in what comes. -/
theorem Process.follows_knowing {process : Work Answer} {goal : Answer → Hand → Prop} {fact : Prop}
    (isStep : ∃ ready update next, process = .step ready update next)
    (known : ∀ machine, Known program base machine token → fact)
    (follows : fact → process.Follows (.balancing program base) thread token goal) :
    process.Follows (.balancing program base) thread token goal := by
  obtain ⟨ready, update, next, rfl⟩ := isStep
  exact fun machine hands fits holding =>
    follows (known machine ⟨hands, thread, fits, holding⟩) machine hands fits holding

/-- Waiting changes nothing. -/
theorem Effect.waitUntil_stays_balancing (ready : Machine → Bool) {upset : Interruption → Hand → Prop} :
    (waitUntil ready).Follows (.balancing program base) thread token (fun _ last => last = token)
      upset := by
  refine follows_waitUntil (fun _ _ _ _ _ => trivial) fun machine hands fits holding _ =>
    ⟨token, ?_, rfl⟩
  rw [← holding, Function.update_eq_self]
  exact fits

theorem Process.immaterial_modify {update : Machine → Machine}
    (immaterial : ∀ machine, Immaterial machine (update machine)) :
    (modify update).Stays (.balancing program base) thread token fun _ => True :=
  stays_modify (fun machine _ fits _ => ⟨trivial, (immaterial machine).accounts fits⟩) trivial

theorem Effect.immaterial_modify {update : Machine → Machine} {upset : Interruption → Hand → Prop}
    (immaterial : ∀ machine, Immaterial machine (update machine)) :
    (modify update).Follows (.balancing program base) thread token (fun _ last => last = token)
      upset :=
  follows_work (Process.Follows.weaken (Process.immaterial_modify immaterial)
    fun _ _ reached => reached.1)

namespace Balance

theorem immaterial_write (machine : Machine) (entry : JournalEntry) :
    Immaterial machine (machine.write entry) :=
  ⟨⟨rfl, Nat.le_refl _, rfl, rfl, rfl⟩, rfl, rfl⟩

end Balance

/-! ## Counting -/

/-- How far counts tilt the scales that are added to those of a machine. -/
def Tallies.tilt (spent : Tallies) : Tilt :=
  Balance.tilt (spent.contexts - spent.scheduled - spent.inCaller) (spent.responses - spent.inCaller)
    spent.inCaller spent.contexts spent.inits

def Happening.tilt (happening : Happening) : Tilt :=
  match happening.dispatched? with
  | some unit => Balance.tilt 0 0 (-1) (-unit.workers.length) 0
  | none => 0

theorem Machine.tilt_plus (machine : Machine) (spent : Tallies) :
    { machine with tallies := machine.tallies.plus spent }.tilt program =
      machine.tilt program + spent.tilt := by
  unfold Machine.tilt Tallies.tilt
  rw [tilt_add]
  dsimp only [Tallies.plus]
  push_cast
  congr 1 <;> omega

theorem Machine.tilt_record (machine : Machine) (happening : Happening) :
    (machine.record happening).tilt program = machine.tilt program + happening.tilt := by
  unfold Machine.tilt Happening.tilt record
  cases dispatched : happening.dispatched? with
  | none =>
    rw [add_zero]
    simp [dispatchedUnits, dispatched]
  | some unit =>
    rw [tilt_add]
    simp only [dispatchedUnits, List.filterMap_cons, dispatched, workerCount, List.map_cons,
      List.sum_cons, List.length_cons]
    push_cast
    congr 1 <;> omega

theorem tally_balances {count : Tallies → Tallies} (spent : Tallies)
    (counts : ∀ tallies, count tallies = tallies.plus spent) {upset : Interruption → Hand → Prop} :
    (tally count).Follows (.balancing program base) thread token
      (fun _ last => last = token.add spent.tilt) upset := by
  refine Effect.follows_accounting_modify fun machine _ => ?_
  have counted : Counts machine { machine with tallies := machine.tallies.plus spent } :=
    ⟨rfl, Nat.le_refl _, rfl, rfl, rfl⟩
  rw [counts]
  exact counted.exchanges ⟨spent, rfl⟩ (List.suffix_refl _) (machine.tilt_plus spent)

theorem Balance.exchanges_record (machine : Machine) (happening : Happening) :
    Exchanges program base machine (machine.record happening) thread token
      (token.add happening.tilt) := by
  have counted : Counts machine (machine.record happening) :=
    ⟨rfl, Nat.le_refl _, rfl, rfl, rfl⟩
  exact counted.exchanges ⟨{}, rfl⟩ (List.suffix_cons _ _) (machine.tilt_record happening)

/-! ## Contexts -/

theorem registerContext_balances {arena : ArenaKey} (isOwn : arena = Machine.ownArena)
    (record : ContextRecord) {upset : Interruption → Hand → Prop} :
    (registerContext arena record).Follows (.balancing program base) thread token
      (fun id last => token.held id = none ∧ base.state? id = none ∧
        last = token.hold id (some ⟨record.state, none⟩)) upset := by
  subst isOwn
  exact Effect.follows_accounting fun _ known =>
    ⟨_, exchanges_enter record, known.nextId.1, known.nextId.2, rfl⟩

/-- A context in hand makes a move that it may make. -/
theorem Balance.Known.moves (known : Known program base machine token)
    (isHeld : token.held id = some holding) {next : ContextState}
    (mayMove : holding.state.canMoveTo next = true) :
    ((machine.arena Machine.ownArena).transition id next).1 = .ok holding.state ∧
      Exchanges program base machine (machine.setArena Machine.ownArena
        ((machine.arena Machine.ownArena).transition id next).2) thread token
        (token.hold id (some { holding with state := next })) := by
  obtain ⟨moved, isNext⟩ := Arena.state?_transition (known.state? isHeld) mayMove
  exact ⟨moved, exchanges_alter _ isHeld (Arena.transition_altersOnly _ id next) isNext
    fun task isTask => .inl isTask⟩

/-- A context that has been created becomes ready to run the worker of a task. -/
theorem moveContext_balances {arena : ArenaKey} (isOwn : arena = Machine.ownArena)
    (isHeld : token.held id = some ⟨.created, none⟩)
    (isId : task.context.id = id) (isNew : base.state? id = none)
    (prepares : program.Prepares task)
    (awaits : ∀ machine, Known program base machine token → machine.Awaits task)
    {upset : Interruption → Hand → Prop} :
    (moveContext arena id .runnable).Follows (.balancing program base) thread token
      (fun moved last => moved = .ok .created ∧
        last = token.hold id (some ⟨.runnable, some task⟩)) upset := by
  subst isOwn
  refine Effect.follows_accounting fun machine known => ?_
  obtain ⟨moved, isNext⟩ := Arena.state?_transition (known.state? isHeld)
    (show ContextState.created.canMoveTo .runnable = true from rfl)
  refine ⟨_, exchanges_alter ⟨.runnable, some task⟩ isHeld (Arena.transition_altersOnly _ id _)
    isNext ?_, moved, rfl⟩
  rintro its isIts
  cases isIts
  exact .inr ⟨isId, isNew, prepares, awaits machine known⟩

theorem beginWait_balances {arena : ArenaKey} (isOwn : arena = Machine.ownArena)
    {task? : Option Task} (isHeld : token.held id = some ⟨.running, task?⟩)
    {upset : Interruption → Hand → Prop} :
    (Effect.atomically (Machine.inArena arena fun records => records.beginWait id)).Follows
      (.balancing program base) thread token
      (fun begun last => begun = .ok () ∧ last = token.hold id (some ⟨.waiting, task?⟩)) upset := by
  subst isOwn
  refine Effect.follows_accounting fun machine known => ?_
  obtain ⟨begun, waits⟩ := Arena.state?_beginWait (known.state? isHeld)
  exact ⟨_, exchanges_alter ⟨.waiting, task?⟩ isHeld (Arena.beginWait_altersOnly _ id) waits
    fun task isTask => .inl isTask, begun, rfl⟩

/-- A waiting context in hand has nothing to mark. -/
theorem suspend_balances {task? : Option Task} (isHeld : token.held id = some ⟨.waiting, task?⟩) :
    (Process.atomically (Machine.inArena Machine.ownArena fun records => records.suspend id)).Follows
      (.balancing program base) thread token fun suspended last => suspended = .ok () ∧ last = token := by
  refine Process.follows_accounting fun machine known => ?_
  have waits := known.state? isHeld
  have suspended : (machine.arena Machine.ownArena).suspend id =
      (.ok (), machine.arena Machine.ownArena) := by
    unfold Arena.suspend
    rw [show (machine.arena Machine.ownArena).state? id = some .waiting from waits]
  unfold Machine.inArena
  dsimp only
  rw [suspended]
  refine ⟨token, Immaterial.exchanges ⟨⟨Machine.state?_setArena .., ?_, rfl, rfl, rfl⟩, rfl, rfl⟩, rfl, rfl⟩
  rw [Machine.nextId_setArena]

/-- A waiting context in hand runs again, and one that runs goes on running. -/
theorem resumeParent_balances {task? : Option Task} {state : ContextState}
    (isHeld : token.held id = some ⟨state, task?⟩) (active : state = .running ∨ state = .waiting) :
    (resumeParent id).Follows (.balancing program base) thread token fun _ last =>
      last = token.hold id (some ⟨.running, task?⟩) := by
  refine Process.follows_accounting_modify fun machine known => ?_
  have active : Active (machine.state? id) := by
    rw [known.state? isHeld]
    exact active.imp (congrArg some) (congrArg some)
  exact exchanges_alter ⟨.running, task?⟩ isHeld (Arena.resume_altersOnly _ id)
    (Arena.state?_resume active) fun task isTask => .inl isTask

/-- A context in hand that has come in the course of the run is forgotten. -/
theorem release_balances {context : Context} (isOwn : context.arena = Machine.ownArena)
    (isHeld : token.held context.id = some holding) (isNew : base.state? context.id = none) :
    context.release.Follows (.balancing program base) thread token fun _ last =>
      last = token.hold context.id none := by
  refine Process.follows_accounting_modify fun machine _ => ?_
  rw [isOwn]
  exact exchanges_leave isHeld isNew

end WorkerMachine
