import WorkerMachine.Proofs.Process.Turns
import WorkerMachine.Proofs.Script.Soundness
import WorkerMachine.Proofs.Siblings.Accesses
/-!
# Siblings that keep apart

Workers of one unit run beside each other and share global memory.  If no worker stores in a global
slot that another one accesses, then each of them ends as it would alone, and global memory ends as it
would if they ran one after the other.

Every thread holds the global memory that its worker would see alone.  Global memory agrees with it
wherever the worker looks, whatever the other workers store meanwhile.
-/

namespace WorkerMachine

open Script

/-! ## Global memory as each thread knows it -/

/-- Global memory agrees with what each thread knows of it in the slots that the thread accesses, and is
as it was at the start in the slots in which nobody stores.  Nothing else has changed. -/
structure Separate (accesses stores : ThreadId → List Slot) (start machine : Machine)
    (hands : ThreadId → RegisterFile) : Prop where
  only : machine = { start with globals := machine.globals }
  sized : machine.globals.sizes = start.globals.sizes
  known : ∀ thread, (hands thread).sizes = start.globals.sizes
  agrees : ∀ thread, ∀ slot ∈ accesses thread,
    machine.globals.cell? slot = (hands thread).cell? slot
  unstored : ∀ slot, (∀ thread, slot ∉ stores thread) →
    machine.globals.cell? slot = start.globals.cell? slot

/-- The discipline of threads that keep apart in global memory. -/
def Discipline.separating (accesses stores : ThreadId → List Slot) (start : Machine) :
    Discipline ThreadId Machine RegisterFile where
  fits := Separate accesses stores start
  permits _ _ := True
  excuses _ _ _ := False
  permits_refl _ := trivial

section Separation

variable {accesses stores : ThreadId → List Slot} {start machine other : Machine}
  {hands : ThreadId → RegisterFile} {thread : ThreadId}

theorem Separate.atStart (accesses stores : ThreadId → List Slot) (machine : Machine) :
    Separate accesses stores machine machine fun _ => machine.globals :=
  ⟨rfl, rfl, fun _ => rfl, fun _ _ _ => rfl, fun _ _ => rfl⟩

/-- What the threads know that store in global memory tells what the machine is like. -/
theorem Separate.unique {otherHands : ThreadId → RegisterFile}
    (separate : Separate accesses stores start machine hands)
    (separateOther : Separate accesses stores start other otherHands)
    (accessed : ∀ thread, stores thread ⊆ accesses thread)
    (sameHands : ∀ thread, ∀ slot ∈ stores thread, hands thread = otherHands thread) :
    machine = other := by
  have same : machine.globals = other.globals := by
    refine RegisterFile.ext_cell? fun slot => ?_
    by_cases isStored : ∃ thread, slot ∈ stores thread
    · obtain ⟨thread, stored⟩ := isStored
      rw [separate.agrees thread slot (accessed thread stored), sameHands thread slot stored,
        separateOther.agrees thread slot (accessed thread stored)]
    · have unstored := not_exists.mp isStored
      rw [separate.unstored slot unstored, separateOther.unstored slot unstored]
  rw [separate.only, separateOther.only, same]

/-- An instruction of one thread does to global memory what it would do to what the thread knows of it,
and the other threads keep what they know. -/
theorem Separate.perform (separate : Separate accesses stores start machine hands)
    {instruction : Instruction} {context after : Context} {continuation : Continuation}
    {later : RegisterFile}
    (performs : instruction.perform context (hands thread) = .ok (continuation, after, later))
    (accessed : instruction.globalAccesses ⊆ accesses thread)
    (stored : instruction.globalStores ⊆ stores thread)
    (apart : ∀ other, thread ≠ other → ∀ slot ∈ stores thread, slot ∉ accesses other) :
    ∃ globals, instruction.perform context machine.globals = .ok (continuation, after, globals) ∧
      Separate accesses stores start { machine with globals := globals }
        (Function.update hands thread later) := by
  have sized : machine.globals.sizes = (hands thread).sizes :=
    separate.sized.trans (separate.known thread).symm
  obtain ⟨globals, performsHere, sizedAfter, agreeAfter⟩ :=
    Instruction.exists_perform_congr performs sized fun slot member =>
      separate.agrees thread slot (accessed member)
  have untouched : ∀ slot, slot ∉ stores thread →
      globals.cell? slot = machine.globals.cell? slot :=
    fun slot unstored => Instruction.cell?_of_perform performsHere fun member => unstored (stored member)
  refine ⟨globals, performsHere, ?_, sizedAfter.trans separate.sized, ?_, ?_, ?_⟩
  · rw [separate.only]
  · intro other
    by_cases same : other = thread
    · subst same
      rw [Function.update_self]
      exact (Instruction.sizes_of_perform performs).trans (separate.known other)
    · rw [Function.update_of_ne same]
      exact separate.known other
  · intro other slot member
    by_cases same : other = thread
    · subst same
      rw [Function.update_self]
      exact agreeAfter slot (separate.agrees other slot member)
    · rw [Function.update_of_ne same]
      have notStored : slot ∉ stores thread :=
        fun isStored => apart other (Ne.symm same) slot isStored member
      exact (untouched slot notStored).trans (separate.agrees other slot member)
  · intro slot unstored
    exact (untouched slot (unstored thread)).trans (separate.unstored slot unstored)

/-- An instruction of a thread comes to what it would come to alone. -/
theorem carryOut_separates {station : Station} {instruction : Instruction} {context after : Context}
    {continuation : Continuation} {known later : RegisterFile}
    (performs : instruction.perform context known = .ok (continuation, after, later))
    (accessed : instruction.globalAccesses ⊆ accesses thread)
    (stored : instruction.globalStores ⊆ stores thread)
    (apart : ∀ other, thread ≠ other → ∀ slot ∈ stores thread, slot ∉ accesses other) :
    ((carryOut station instruction).runOn context).Follows (.separating accesses stores start) thread
      known fun answer token => answer = (.ok continuation, after) ∧ token = later := by
  let allowed (machine : Machine) : Prop := machine.globals.sizes = known.sizes ∧
    ∀ slot ∈ instruction.globalAccesses, machine.globals.cell? slot = known.cell? slot
  let alone : Machine := { start with globals := known }
  have isAllowed : allowed alone := ⟨rfl, fun _ _ => rfl⟩
  have acts : ((carryOut station instruction).runOn context).ActsAs allowed
      (instruction.Performs context) := by
    refine carryOut_actsAs station (Instruction.isCall_of_perform performs) ⟨alone, isAllowed⟩ ?_
    rintro machine ⟨sized, agree⟩
    obtain ⟨globals, performsHere, _⟩ := Instruction.exists_perform_congr performs sized agree
    exact ⟨continuation, after, globals, performsHere⟩
  refine acts.follows ?_ ?_ ?_
  · rintro machine hands separate rfl
    exact ⟨separate.sized.trans (separate.known thread).symm,
      fun slot member => separate.agrees thread slot (accessed member)⟩
  · intro answer happens
    obtain ⟨_, _, _, performsAlone, rfl, isSame⟩ := happens alone isAllowed
    cases performs.symm.trans performsAlone
    exact ⟨rfl, congrArg Machine.globals isSame⟩
  · rintro machine hands answer _ separate rfl ⟨_, _, _, performsHere, rfl, rfl⟩
    obtain ⟨globals, performsToo, separateAfter⟩ :=
      Separate.perform separate performs accessed stored apart
    cases performsHere.symm.trans performsToo
    exact ⟨trivial, later, separateAfter, rfl, rfl⟩

/-- The body of a worker ends as it would alone, with the global memory that the worker would leave
alone. -/
theorem carryOutAll_separates {station : Station} {instructions : List Instruction}
    {context after : Context} {known later : RegisterFile} {exit : WorkerExit}
    (performs : performAll instructions context known = .ok (exit, after, later))
    (accessed : accessedGlobals instructions ⊆ accesses thread)
    (stored : storedGlobals instructions ⊆ stores thread)
    (apart : ∀ other, thread ≠ other → ∀ slot ∈ stores thread, slot ∉ accesses other) :
    ((carryOutAll station instructions).runOn context).Follows (.separating accesses stores start)
      thread known fun answer token => answer = (.ok exit, after) ∧ token = later := by
  induction instructions generalizing context known with
  | nil =>
    cases performs
    exact ⟨rfl, rfl⟩
  | cons instruction rest inductionHypothesis =>
    rw [performAll] at performs
    obtain ⟨⟨continuation, middle, between⟩, performsFirst, performsRest⟩ := exists_of_bind_eq_ok performs
    have ends : ((carryOut station instruction).runOn context).Follows
        (.separating accesses stores start) thread known _ :=
      carryOut_separates performsFirst
        (fun slot member => accessed (Instruction.mem_accessedGlobals member))
        (fun slot member => stored (Instruction.mem_storedGlobals member)) apart
    unfold carryOutAll
    rw [Routine.runOn_bind]
    refine ends.bind ?_
    rintro _ _ ⟨rfl, rfl⟩
    cases continuation with
    | stop exit =>
      cases performsRest
      exact ⟨rfl, rfl⟩
    | next =>
      have goesOn := Instruction.goesOn_of_perform performsFirst
      exact inductionHypothesis performsRest
        (fun slot member => accessed (mem_accessedGlobals_cons goesOn member))
        (fun slot member => stored (mem_storedGlobals_cons goesOn member))

end Separation

/-! ## Workers of one unit -/

structure Sibling where
  worker : Worker
  context : Context
  script : List Instruction
  deriving Inhabited

/-- A worker of a unit is about to carry out the script that is recorded for it.  The script has been
checked against the registers of the worker and the sizes of global memory, and makes no calls. -/
structure Sibling.Ready (unit : Callable) (bodies : Table BodyKey (List Instruction))
    (globals : BankSizes) (sibling : Sibling) : Prop where
  active : sibling.context.activity = some (unit, sibling.worker)
  recorded : bodies.get? (unit.bodyKey sibling.worker) = some sibling.script
  checked : ∀ instruction ∈ sibling.script,
    (⟨sibling.worker.locals, unit.returns.sizes, globals⟩ : Footprint).check instruction = .ok ()
  noCalls : ∀ instruction ∈ sibling.script, instruction.isCall = false
  fits : (⟨sibling.worker.locals, unit.returns.sizes, globals⟩ : Footprint).Fits sibling.context

/-- Workers on threads of their own. -/
structure Crew where
  threads : List ThreadId
  sibling : ThreadId → Sibling

namespace Crew

variable (crew : Crew) (bodies : Table BodyKey (List Instruction)) (station : ThreadId → Station)
  (machine : Machine)

/-- No worker stores in a global slot that another worker loads or stores in. -/
def Apart : Prop :=
  ∀ thread ∈ crew.threads, ∀ other ∈ crew.threads, thread ≠ other →
    ∀ slot ∈ storedGlobals (crew.sibling thread).script,
      slot ∉ accessedGlobals (crew.sibling other).script

def body (thread : ThreadId) : Work (Except Interruption WorkerExit × Context) :=
  (interpreter bodies (station thread)).runOn (crew.sibling thread).context

def crowd : Crowd ThreadId Machine (Except Interruption WorkerExit × Context) :=
  ⟨machine, fun thread => if thread ∈ crew.threads then some (crew.body bodies station thread) else none⟩

def stores (thread : ThreadId) : List Slot :=
  if thread ∈ crew.threads then storedGlobals (crew.sibling thread).script else []

def accesses (thread : ThreadId) : List Slot :=
  if thread ∈ crew.threads then accessedGlobals (crew.sibling thread).script else []

variable {crew bodies station machine}

theorem stores_subset (thread : ThreadId) : crew.stores thread ⊆ crew.accesses thread := by
  unfold stores accesses
  split
  · exact fun _ => accessed_of_stored
  · exact fun _ => id

theorem mem_threads_of_stores {thread : ThreadId} {slot : Slot} (stored : slot ∈ crew.stores thread) :
    thread ∈ crew.threads := by
  unfold stores at stored
  split at stored
  · assumption
  · cases stored

theorem Apart.notMem (apart : crew.Apart) {thread other : ThreadId} (different : thread ≠ other)
    {slot : Slot} (stored : slot ∈ crew.stores thread) : slot ∉ crew.accesses other := by
  unfold stores at stored
  unfold accesses
  split at stored
  · next isThread =>
    split
    · next isOther => exact apart thread isThread other isOther different slot stored
    · exact List.not_mem_nil
  · cases stored

/-- Every worker ends as it would alone. -/
theorem body_follows {unit : Callable} {sizes : BankSizes} (apart : crew.Apart) {thread : ThreadId}
    (member : thread ∈ crew.threads) (ready : (crew.sibling thread).Ready unit bodies sizes)
    {exit : WorkerExit} {after : Context} {known later : RegisterFile}
    (performs : performAll (crew.sibling thread).script (crew.sibling thread).context known =
      .ok (exit, after, later)) :
    (crew.body bodies station thread).Follows (.separating crew.accesses crew.stores machine) thread
      known fun answer token => answer = (.ok exit, after) ∧ token = later := by
  unfold body
  rw [runOn_interpreter _ ready.active ready.recorded]
  refine carryOutAll_separates performs ?_ ?_ fun other different slot => apart.notMem different
  · unfold accesses
    rw [if_pos member]
    exact List.Subset.refl _
  · unfold stores
    rw [if_pos member]
    exact List.Subset.refl _

end Crew

/-- Every worker of a crew has one exit and one context to end with, and global memory has one content,
whatever the order in which the workers run, and however their threads interleave. -/
structure Crew.EndsAs (crew : Crew) (bodies : Table BodyKey (List Instruction))
    (station : ThreadId → Station) (machine : Machine) (exit : ThreadId → WorkerExit)
    (left : ThreadId → Context) (globals : RegisterFile) : Prop where
  /-- The workers come to this when they run one after the other. -/
  inTurn : ∀ order, order.Perm crew.threads →
    Process.runInTurn (crew.body bodies station) order machine =
      some (order.map fun thread => (.ok (exit thread), left thread), { machine with globals := globals })
  /-- A worker that has ended has come to this, whatever the others have done meanwhile. -/
  answers : ∀ later, (crew.crowd bodies station machine).Leads (fun _ _ _ _ => False) later →
    ∀ thread ∈ crew.threads, ∀ answer, later.Ended thread answer →
      answer = (.ok (exit thread), left thread)
  /-- When all workers have ended, global memory has come to this, and nothing else has changed. -/
  settles : ∀ later, (crew.crowd bodies station machine).Leads (fun _ _ _ _ => False) later →
    (∀ thread ∈ crew.threads, ∃ answer, later.Ended thread answer) →
      later.state = { machine with globals := globals }
  /-- At every moment all workers can go on to their ends. -/
  goesOn : ∀ later, (crew.crowd bodies station machine).Leads (fun _ _ _ _ => False) later →
    ∃ ended, later.Leads (fun _ _ _ _ => False) ended ∧
      ∀ thread ∈ crew.threads, ended.Ended thread (.ok (exit thread), left thread)

/-- Workers of one unit whose scripts have been checked and make no calls cannot influence each other
if no worker stores in a global slot that another one loads or stores in: from the same registers and
the same global memory, each of them ends with the same exit and the same context, so with the same
registers, results and error, and global memory ends with the same content, whether the workers run
one after the other in any order or their threads interleave in any way. -/
theorem siblings_apart_independent {crew : Crew} {unit : Callable}
    {bodies : Table BodyKey (List Instruction)} {machine : Machine} (distinct : crew.threads.Nodup)
    (ready : ∀ thread ∈ crew.threads, (crew.sibling thread).Ready unit bodies machine.globals.sizes)
    (apart : crew.Apart) (station : ThreadId → Station) :
    ∃ exit left globals, crew.EndsAs bodies station machine exit left globals := by
  have performs : ∀ thread, ∃ exit after known, thread ∈ crew.threads →
      performAll (crew.sibling thread).script (crew.sibling thread).context machine.globals =
        .ok (exit, after, known) := by
    intro thread
    by_cases member : thread ∈ crew.threads
    · have isReady := ready thread member
      obtain ⟨exit, after, known, performs, _⟩ :=
        exists_performAll isReady.checked isReady.noCalls isReady.fits rfl
      exact ⟨exit, after, known, fun _ => performs⟩
    · exact ⟨default, default, default, fun isMember => absurd isMember member⟩
  choose exit left known performs using performs
  let discipline := Discipline.separating crew.accesses crew.stores machine
  let goal (thread : ThreadId) (answer : Except Interruption WorkerExit × Context)
      (token : RegisterFile) : Prop :=
    answer = (.ok (exit thread), left thread) ∧ token = known thread
  have nobody : discipline.ExcusesNobody := fun _ _ _ => id
  have follows : ∀ thread ∈ crew.threads, (crew.body bodies station thread).Follows discipline thread
      machine.globals (goal thread) :=
    fun thread member => Crew.body_follows apart member (ready thread member) (performs thread member)
  have fits := Separate.atStart crew.accesses crew.stores machine
  have unique : ∀ {one other : Machine} {hands otherHands : ThreadId → RegisterFile},
      discipline.fits one hands → discipline.fits other otherHands →
      (∀ thread ∈ crew.threads, hands thread = known thread) →
      (∀ thread ∈ crew.threads, otherHands thread = known thread) → one = other := by
    intro one other hands otherHands separate separateOther holds holdsOther
    refine Separate.unique separate separateOther Crew.stores_subset fun thread slot stored => ?_
    have member := Crew.mem_threads_of_stores stored
    rw [holds thread member, holdsOther thread member]
  -- Any one order tells what global memory ends with.
  obtain ⟨final, hands, ran, fitsFinal, holds, _⟩ :=
    Process.exists_runInTurn nobody distinct fits follows
  have isFinal : final = { machine with globals := final.globals } := fitsFinal.only
  have welcoming : Crowd.Welcoming discipline machine.globals goal fun _ _ _ _ => False :=
    fun _ _ _ _ _ _ _ never => never.elim
  have orderly : (crew.crowd bodies station machine).Orderly discipline machine.globals goal := by
    refine ⟨fun _ => machine.globals, fits, ?_, fun _ _ => rfl⟩
    intro thread process holds
    obtain ⟨member, isBody⟩ := Option.ite_none_right_eq_some.mp holds
    cases isBody
    exact follows thread member
  refine ⟨exit, left, final.globals, ?_, ?_, ?_, ?_⟩
  · intro order perm
    obtain ⟨last, handsLast, ranLast, fitsLast, holdsLast, _⟩ :=
      Process.exists_runInTurn nobody (perm.nodup_iff.mpr distinct) fits fun thread member =>
        follows thread (perm.mem_iff.mp member)
    have same : last = final :=
      unique fitsLast fitsFinal (fun thread member => holdsLast thread (perm.mem_iff.mpr member)) holds
    rw [ranLast, same, ← isFinal]
  · intro later leads thread _ answer ended
    obtain ⟨_, orderlyWith⟩ := orderly.leads welcoming leads
    exact (orderlyWith.ended ended).1
  · intro later leads allEnded
    obtain ⟨handsLater, orderlyWith⟩ := orderly.leads welcoming leads
    have same : later.state = final := by
      refine unique orderlyWith.fits fitsFinal (fun thread member => ?_) holds
      obtain ⟨answer, ended⟩ := allEnded thread member
      exact (orderlyWith.ended ended).2
    rw [same, ← isFinal]
  · intro later leads
    have orderlyLater := orderly.leads welcoming leads
    have present : ∀ thread ∈ crew.threads, (later.process thread).isSome := by
      intro thread member
      exact leads.isSome_process (Option.isSome_iff_exists.mpr ⟨_, if_pos member⟩)
    obtain ⟨ended, leadsEnded, allEnded⟩ := orderlyLater.exists_ended welcoming nobody present
    refine ⟨ended, leadsEnded, fun thread member => ?_⟩
    obtain ⟨answer, isEnded⟩ := allEnded thread member
    obtain ⟨_, orderlyWith⟩ := orderlyLater.leads welcoming leadsEnded
    have isAnswer : answer = (.ok (exit thread), left thread) := (orderlyWith.ended isEnded).1
    rwa [← isAnswer]

def Callable.writing : Callable :=
  ⟨"lib", "write", .function, .empty, .empty, ⟨"flag", 0, { ints := 1 }⟩, [⟨"sum", 1, { longs := 1 }⟩]⟩

/-- One worker stores a truth value, and the other one doubles a global number and raises an error. -/
def Crew.writing : Crew where
  threads := [4, 5]
  sibling
    | 4 => {
        worker := ⟨"flag", 0, { ints := 1 }⟩
        context := { (default : Context) with
          activity := some (.writing, ⟨"flag", 0, { ints := 1 }⟩)
          locals := { ints := #[1] } }
        script := [.storeGlobal .boolean 0 0, .finish] }
    | _ => {
        worker := ⟨"sum", 1, { longs := 1 }⟩
        context := { (default : Context) with
          activity := some (.writing, ⟨"sum", 1, { longs := 1 }⟩)
          locals := { longs := #[0] } }
        script := [.loadGlobal .int 0 0, .add .int 0 0 0, .storeGlobal .int 0 1, .raise "lost"] }

def Crew.writingBodies : Table BodyKey (List Instruction) :=
  .ofList (Crew.writing.threads.map fun thread =>
    (Callable.writing.bodyKey (Crew.writing.sibling thread).worker, (Crew.writing.sibling thread).script))

def Machine.numbered : Machine :=
  { (default : Machine) with globals := { longs := #[21, 0], ints := #[0] } }

/-- In whatever way they interleave, the writing workers leave the truth value and the sum, and one of
them has raised its error. -/
theorem siblings_apart_independent_of_writing :
    ∃ exit left globals,
      Crew.writing.EndsAs Crew.writingBodies
        (fun thread => (default : Setup).station (interpreter Crew.writingBodies) thread 0)
        Machine.numbered exit left globals ∧
      globals = { longs := #[21, 42], ints := #[1] } ∧ exit 4 = .returned ∧
      (left 5).error = some (.ofMessage "lost") ∧ (left 5).locals = { longs := #[42] } := by
  have ready : ∀ thread ∈ Crew.writing.threads, (Crew.writing.sibling thread).Ready .writing
      Crew.writingBodies Machine.numbered.globals.sizes := by
    intro thread member
    rcases List.mem_cons.mp member with rfl | member
    · exact ⟨rfl, by decide, by decide, by decide, ⟨rfl, rfl⟩⟩
    · obtain rfl := List.mem_singleton.mp member
      exact ⟨rfl, by decide, by decide, by decide, ⟨rfl, rfl⟩⟩
  have apart : Crew.writing.Apart := by
    unfold Crew.Apart
    decide
  obtain ⟨exit, left, globals, ends⟩ :=
    siblings_apart_independent (by decide) ready apart fun thread =>
      (default : Setup).station (interpreter Crew.writingBodies) thread 0
  refine ⟨exit, left, globals, ends, ?_⟩
  have ran : (Process.runInTurn (Crew.writing.body Crew.writingBodies fun thread =>
      (default : Setup).station (interpreter Crew.writingBodies) thread 0) Crew.writing.threads
        Machine.numbered).map (fun last => (last.2.globals, last.1.map fun answer =>
          (answer.1.toOption, answer.2.error, answer.2.locals))) =
      some ({ longs := #[21, 42], ints := #[1] }, [(some .returned, none, { ints := #[1] }),
        (some .halted, some (.ofMessage "lost"), { longs := #[42] })]) :=
    rfl
  rw [ends.inTurn _ (.refl _)] at ran
  obtain ⟨isGlobals, isAnswers⟩ := Prod.mk.inj (Option.some.inj ran)
  obtain ⟨isFirst, isRest⟩ := List.cons.inj isAnswers
  obtain ⟨isSecond, _⟩ := List.cons.inj isRest
  exact ⟨isGlobals, Option.some.inj (congrArg Prod.fst isFirst), congrArg (fun answer => answer.2.1) isSecond,
    congrArg (fun answer => answer.2.2) isSecond⟩

end WorkerMachine
