import WorkerMachine.Proofs.Clearance.Hands
import WorkerMachine.Proofs.Invocation.Minding
import WorkerMachine.Proofs.Process.Staying
/-!
# Steps of a thread that knows the activities in its hand

What the atomic steps of a machine do to the activities in the hand of the thread that takes them.
-/

namespace WorkerMachine

open Clearance

/-! ## Scenes after a step -/

namespace Arena

variable {arena : Arena} {id : ContextId} {parent : Option ContextId} {state next : ContextState}

theorem standing?_register (arena : Arena) (record : ContextRecord) :
    (arena.register record).2.standing? =
      Function.update arena.standing? arena.nextId (some (record.parent, record.state)) := by
  funext asked
  unfold standing?
  rw [record?_register]
  by_cases isNew : arena.nextId = asked
  · subst isNew
    simp
  · simp [isNew, Function.update_of_ne (Ne.symm isNew)]

theorem standing?_release (arena : Arena) (id : ContextId) :
    (arena.release id).standing? = Function.update arena.standing? id none := by
  funext asked
  unfold standing?
  rw [record?_release]
  by_cases isReleased : id = asked
  · subst isReleased
    simp
  · simp [isReleased, Function.update_of_ne (Ne.symm isReleased)]

/-- A move that a context may make succeeds, and moves nothing else. -/
theorem transition_of_standing? (stands : arena.standing? id = some (parent, state))
    (mayMove : state.canMoveTo next = true) :
    (arena.transition id next).1 = .ok state ∧
      (arena.transition id next).2.standing? =
        Function.update arena.standing? id (some (parent, next)) ∧
      (arena.transition id next).2.nextId = arena.nextId := by
  obtain ⟨record, found, same⟩ := Option.map_eq_some_iff.mp stands
  cases same
  unfold transition
  rw [found]
  simp only [mayMove, if_true, true_and, and_true]
  funext asked
  unfold standing? record?
  rw [Table.get?_insert]
  by_cases isMoved : id = asked
  · subst isMoved
    simp
  · simp [isMoved, Function.update_of_ne (Ne.symm isMoved)]

theorem state?_of_standing? (stands : arena.standing? id = some (parent, state)) :
    arena.state? id = some state := by
  obtain ⟨record, found, same⟩ := Option.map_eq_some_iff.mp stands
  cases same
  exact Option.map_eq_some_iff.mpr ⟨record, found, rfl⟩

end Arena

namespace Machine

theorem scene_setArena (machine : Machine) (arena : Arena) :
    (machine.setArena ownArena arena).scene =
      { machine.scene with record := arena.standing?, nextId := arena.nextId } := by
  have changed : (machine.setArena ownArena arena).arena ownArena = arena := by
    rw [arena_setArena, if_pos rfl]
  unfold scene
  rw [changed]
  rfl

theorem scene_contribute (machine : Machine) {id : ResponseId} (worker : ContextId)
    (outcome : WorkerOutcome) (result : RegisterFile) (opened : id < machine.scene.opened) :
    (machine.contribute id worker outcome result).2.scene =
      { machine.scene with
        response := Function.update machine.response id
          ((machine.response id).contribute worker outcome result).1 } := by
  have responses : (machine.contribute id worker outcome result).2.response =
      Function.update machine.response id
        ((machine.response id).contribute worker outcome result).1 := by
    funext asked
    rw [response_contribute]
    by_cases same : asked = id
    · subst same
      rw [if_pos ⟨rfl, opened⟩, Function.update_self]
    · rw [if_neg fun both => same both.1, Function.update_of_ne same]
  have size := size_responses_contribute machine id worker outcome result
  unfold scene
  rw [responses, size]
  rfl

theorem scene_openResponse (machine : Machine) (returns : Layout) (waits : Bool) (expected : Nat) :
    (machine.openResponse returns waits expected).2.scene =
      { machine.scene with
        response := Function.update machine.response machine.responses.size
          (Response.opening returns waits expected)
        opened := machine.responses.size + 1 } := by
  have responses : (machine.openResponse returns waits expected).2.response =
      Function.update machine.response machine.responses.size
        (Response.opening returns waits expected) := by
    funext asked
    rw [response_openResponse, Function.update_apply]
  have size := machine.size_responses_openResponse returns waits expected
  unfold scene
  rw [responses, size]
  rfl

end Machine

namespace Gate

theorem outcome?_eq_some_iff (gate : Gate) (package : String) (outcome : Except Fault Unit) :
    gate.outcome? package = some outcome ↔ gate.stage package = .settled outcome := by
  unfold outcome? stage
  cases gate.cells.get? package with
  | none =>
      simp
  | some cell =>
      cases cell <;> simp

theorem stage_setCell (gate : Gate) (package : String) (cell : InitCell) :
    (gate.setCell package cell).stage =
      Function.update gate.stage package (match cell with
        | .untouched => .untouched
        | .running _ => .running
        | .settled outcome => .settled outcome) := by
  funext asked
  unfold setCell stage
  rw [Table.get?_insert]
  by_cases same : package = asked
  · subst same
    rw [if_pos rfl, Function.update_self]
    cases cell <;> rfl
  · rw [if_neg same, Function.update_of_ne (Ne.symm same)]

end Gate

/-- A step that settles no init anew and lets no worker start. -/
theorem Machine.permits_of_quiet {machine later : Machine}
    (history : later.history = machine.history)
    (settled : ∀ package outcome, machine.scene.stage package = .settled outcome →
      later.scene.stage package = .settled outcome) : machine.Permits later := by
  refine ⟨fun package outcome isSettled => ?_, [], history, fun _ never => by cases never⟩
  rw [Gate.outcome?_eq_some_iff] at isSettled ⊢
  exact settled package outcome isSettled

/-! ## Responses -/

/-- A response with room for the results of its unit takes over whatever an outcome tells. -/
theorem Response.exists_record {response : Response} (sound : response.returns.Sound)
    (staged : response.staged.sizes = response.returns.sizes) (outcome : WorkerOutcome)
    {result : RegisterFile} (sized : result.sizes = response.returns.sizes) :
    ∃ recorded, response.record outcome result = (recorded, .ok ()) ∧
      recorded.returns = response.returns ∧ recorded.staged.sizes = response.staged.sizes ∧
      recorded.contributors = response.contributors ∧
      recorded.outstanding = response.outstanding := by
  cases outcome with
  | returned =>
      by_cases hasValues : response.hasValues = true
      · refine ⟨response, ?_, rfl, rfl, rfl, rfl⟩
        simp [record, stage, hasValues]
      · obtain ⟨file, copied, sizes, _⟩ := Marshalling.exists_copyReturns sound sized staged
        refine ⟨{ response with staged := file, hasValues := true }, ?_, rfl,
          sizes.trans staged.symm, rfl, rfl⟩
        simp [record, stage, hasValues, copied]
  | finished =>
      exact ⟨_, rfl, rfl, rfl, rfl, rfl⟩
  | raised error =>
      exact ⟨_, rfl, rfl, rfl, rfl, rfl⟩
  | faulted fault =>
      exact ⟨_, rfl, rfl, rfl, rfl, rfl⟩

/-- The response of a call takes in whatever comes from a worker on whose task the call counts. -/
theorem Clearance.OpenCall.Kept.contribute {call : OpenCall} {response : Response}
    {nextId : ContextId} (kept : call.Kept response nextId) {task : Task}
    (expects : call.Expects response task) (outcome : WorkerOutcome) {result : RegisterFile}
    (sized : result.sizes = call.unit.returns.sizes) :
    ∃ taken completes, response.contribute task.context.id outcome result = (taken, .ok completes) ∧
      taken.returns = response.returns ∧ taken.staged.sizes = response.staged.sizes ∧
      taken.contributors = task.context.id :: response.contributors ∧
      taken.outstanding + 1 = response.outstanding := by
  have fewer : response.contributors.length + 1 ≤ call.made.length :=
    ((List.nodup_cons.mpr ⟨expects.unended, kept.once⟩).subperm
      (List.cons_subset.mpr ⟨expects.made, kept.contributors⟩)).length_le
  have counted := kept.counted
  have bounded := kept.bounded
  have someOutstanding : response.outstanding ≠ 0 := by omega
  have accepted : response.accepts task.context.id = true := by
    simp [Response.accepts, someOutstanding, expects.unended]
  obtain ⟨recorded, isRecorded, returns, staged, contributors, outstanding⟩ :=
    @Response.exists_record (response.enlist task.context.id) (kept.returns ▸ kept.sound.returns)
      (kept.staged.trans (congrArg Layout.sizes kept.returns.symm)) outcome result
      (sized.trans (congrArg Layout.sizes kept.returns.symm))
  replace outstanding : recorded.outstanding = response.outstanding := outstanding
  unfold Response.contribute
  rw [if_pos accepted, isRecorded]
  by_cases isLast : response.outstanding - 1 = 0
  · refine ⟨{ recorded with outstanding := 0, completions := recorded.completions + 1 }, true, ?_,
      returns, staged, contributors, ?_⟩
    · simp [Response.settle, outstanding, isLast]
    · change 0 + 1 = response.outstanding
      omega
  · refine ⟨{ recorded with outstanding := response.outstanding - 1 }, false, ?_,
      returns, staged, contributors, ?_⟩
    · simp [Response.settle, outstanding, isLast]
    · change response.outstanding - 1 + 1 = response.outstanding
      omega

/-- Once nothing is outstanding, all tasks have contributed. -/
theorem Clearance.OpenCall.Kept.complete {call : OpenCall} {response : Response}
    {nextId : ContextId} (kept : call.Kept response nextId) (nothing : response.outstanding = 0) :
    call.made ⊆ response.contributors := by
  have counted := kept.counted
  have bounded := kept.bounded
  exact ((kept.once.subperm kept.contributors).perm_of_length_le (by omega)).symm.subset

/-! ## Following the discipline -/

section Following

variable {Answer : Type} {thread : ThreadId} {token : Hand} {machine later : Machine}
  {context : ContextId} {activity : Activity} {rest : Hand}

theorem Discipline.exists_known {hands : ThreadId → Hand}
    (fits : Discipline.clearing.fits machine hands) (holding : hands thread = token) :
    ∃ activities, Known machine token activities ∧
      ∀ entry ∈ token, entry.2.owner = some thread := by
  obtain ⟨activities, sound, dealt⟩ := fits
  subst holding
  exact ⟨activities, ⟨sound, fun entry member => (dealt.held thread entry member).1⟩,
    fun entry member => (dealt.held thread entry member).2⟩

theorem Process.follows_exchanging {operation : Machine → Answer × Machine}
    {goal : Answer → Hand → Prop}
    (reached : ∀ machine activities, Known machine token activities →
      machine.Permits (operation machine).2 ∧
        ∃ after, Exchanges machine (operation machine).2 thread token after ∧
          goal (operation machine).1 after) :
    (atomically operation).Follows .clearing thread token goal := by
  refine follows_atomically fun machine hands fits holding => ?_
  obtain ⟨activities, known, _⟩ := Discipline.exists_known fits holding
  obtain ⟨permitted, after, exchanges, reachedGoal⟩ := reached machine activities known
  exact ⟨permitted, after, exchanges hands fits holding, reachedGoal⟩

theorem Effect.follows_exchanging {operation : Machine → Answer × Machine}
    {goal : Answer → Hand → Prop} {upset : Interruption → Hand → Prop}
    (reached : ∀ machine activities, Known machine token activities →
      machine.Permits (operation machine).2 ∧
        ∃ after, Exchanges machine (operation machine).2 thread token after ∧
          goal (operation machine).1 after) :
    (atomically operation).Follows .clearing thread token goal upset :=
  follows_work (Process.follows_exchanging reached)

theorem Process.follows_exchanging_modify {update : Machine → Machine} {after : Hand}
    (reached : ∀ machine activities, Known machine token activities →
      machine.Permits (update machine) ∧ Exchanges machine (update machine) thread token after) :
    (modify update).Follows .clearing thread token fun _ last => last = after := by
  refine follows_modify fun machine hands fits holding => ?_
  obtain ⟨activities, known, _⟩ := Discipline.exists_known fits holding
  obtain ⟨permitted, exchanges⟩ := reached machine activities known
  exact ⟨permitted, after, exchanges hands fits holding, rfl⟩

namespace Clearance

theorem Inert.permits (inert : Inert machine later) : machine.Permits later := by
  refine Machine.permits_of_quiet inert.history fun package outcome isSettled => ?_
  rw [inert.scene]
  exact isSettled

/-- Hands go with a scene and with tasks that wait, and with nothing else of a machine. -/
theorem fits_of_same (scene : later.scene = machine.scene)
    (waitingTasks : later.waitingTasks = machine.waitingTasks) {hands : ThreadId → Hand}
    (fits : Discipline.clearing.fits machine hands) : Discipline.clearing.fits later hands := by
  obtain ⟨activities, sound, dealt⟩ := fits
  refine ⟨activities, ?_, ?_⟩
  · rw [scene]
    exact sound
  · rw [waitingTasks]
    exact dealt

theorem exchanges_same (scene : later.scene = machine.scene)
    (waitingTasks : later.waitingTasks = machine.waitingTasks) :
    Exchanges machine later thread token token := by
  intro hands fits holding
  rw [← holding, Function.update_eq_self]
  exact fits_of_same scene waitingTasks fits

theorem Inert.fits (inert : Inert machine later) {hands : ThreadId → Hand}
    (fits : Discipline.clearing.fits machine hands) : Discipline.clearing.fits later hands :=
  fits_of_same inert.scene inert.waitingTasks fits

theorem Inert.exchanges (inert : Inert machine later) :
    Exchanges machine later thread token token :=
  exchanges_same inert.scene inert.waitingTasks

end Clearance

theorem Process.inert_modify {update : Machine → Machine}
    (inert : ∀ machine, Inert machine (update machine)) :
    (modify update).Stays .clearing thread token fun _ => True :=
  stays_modify (fun machine _ fits _ => ⟨(inert machine).permits, (inert machine).fits fits⟩) trivial

/-! ## States of contexts -/

/-- A context is created, below none or below one that awaits it. -/
theorem Clearance.exchanges_enter {new : Activity} (label : String)
    (owner : new.owner = some thread) (stays : new.role ≠ .leaving) (nothing : new.pursuit = .nothing)
    (suits : new.role.Suits machine.scene.nextId new.parent)
    (awaited : ∀ activities, Known machine token activities → ∀ parent, new.parent = some parent →
      ∃ above, activities parent = some above ∧
        above.pursuit.Awaits machine.response machine.scene.nextId new.role) :
    Exchanges machine
      (machine.setArena Machine.ownArena
        ((machine.arena Machine.ownArena).register ⟨new.parent, new.state, label⟩).2)
      thread token ((machine.scene.nextId, new) :: token) := by
  refine exchanges_create rfl owner fun activities known => ⟨known.1.unborn, ?_⟩
  rw [Machine.scene_setArena, Arena.standing?_register]
  exact @Sound.enter machine.scene activities new known.1 suits stays nothing
    (awaited activities known)

theorem Clearance.exchanges_move {arena : Arena} {state : ContextState}
    (standing : arena.standing? = Function.update machine.scene.record context
      (some (activity.parent, state)))
    (nextId : arena.nextId = machine.scene.nextId) :
    Exchanges machine (machine.setArena Machine.ownArena arena) thread
      ((context, activity) :: rest)
      ((context, { activity with state := state }) :: rest) := by
  refine exchanges_head rfl id fun activities known => ?_
  have found : activities context = some activity := known.2 (context, activity) (by simp)
  rw [Machine.scene_setArena, standing, nextId]
  refine known.1.revise found ?_ ?_ ?_ ?_ ?_
  · rfl
  · rfl
  · rfl
  · exact fun other different => Function.update_of_ne different _ _
  · exact Function.update_self ..

theorem Clearance.Known.standing_of_mem {activities : Activities}
    (known : Known machine token activities)
    (member : (context, activity) ∈ token) :
    (machine.arena Machine.ownArena).standing? context =
      some (activity.parent, activity.state) :=
  known.1.tree.recorded context activity (known.2 (context, activity) member)

theorem Clearance.Known.standing {activities : Activities}
    (known : Known machine ((context, activity) :: rest) activities) :
    (machine.arena Machine.ownArena).standing? context =
      some (activity.parent, activity.state) :=
  known.standing_of_mem List.mem_cons_self

/-- An arena that is put back as it was makes no difference. -/
theorem Machine.inert_setArena (machine : Machine) :
    Inert machine (machine.setArena ownArena (machine.arena ownArena)) where
  scene := machine.scene_setArena _
  history := rfl
  waitingTasks := rfl

/-- A change of the own arena neither settles inits nor lets workers start. -/
theorem Machine.permits_setArena (machine : Machine) (arena : Arena) :
    machine.Permits (machine.setArena ownArena arena) := by
  refine permits_of_quiet rfl fun package outcome isSettled => ?_
  rw [scene_setArena]
  exact isSettled

theorem Machine.permits_contribute (machine : Machine) (response : ResponseId)
    (worker : ContextId) (outcome : WorkerOutcome) (result : RegisterFile) :
    machine.Permits (machine.contribute response worker outcome result).2 :=
  permits_of_quiet rfl fun _ _ => id

theorem moveContext_follows {arena : ArenaKey} (isOwn : arena = Machine.ownArena)
    {next : ContextState} (mayMove : activity.state.canMoveTo next = true)
    {upset : Interruption → Hand → Prop} :
    (moveContext arena context next).Follows .clearing thread
      ((context, activity) :: rest)
      (fun answer last => answer = .ok activity.state ∧
        last = (context, { activity with state := next }) :: rest) upset := by
  subst isOwn
  refine Effect.follows_exchanging fun machine activities known => ?_
  obtain ⟨answer, standing, nextId⟩ := Arena.transition_of_standing? known.standing mayMove
  exact ⟨machine.permits_setArena _, _, exchanges_move standing nextId, answer, rfl⟩

/-- A parent that waits is made to run again. -/
theorem Clearance.Known.resumed {activities : Activities}
    (known : Known machine ((context, activity) :: rest) activities)
    (waits : activity.state = .waiting) :
    Exchanges machine (machine.alterArena Machine.ownArena fun records => records.resume context)
      thread ((context, activity) :: rest)
      ((context, { activity with state := .running }) :: rest) := by
  have standing := known.standing
  rw [waits] at standing
  obtain ⟨_, resumed, nextId⟩ := Arena.transition_of_standing? standing
    (show ContextState.waiting.canMoveTo .running = true from rfl)
  have isResumed : (machine.arena Machine.ownArena).resume context =
      ((machine.arena Machine.ownArena).transition context .running).2 := by
    unfold Arena.resume
    rw [if_pos (Arena.state?_of_standing? standing)]
  unfold Machine.alterArena
  dsimp only
  rw [isResumed]
  exact exchanges_move resumed nextId

theorem resumeParent_follows_clearing (waits : activity.state = .waiting) :
    (resumeParent context).Follows .clearing thread ((context, activity) :: rest)
      fun _ last => last = (context, { activity with state := .running }) :: rest :=
  Process.follows_exchanging_modify fun machine _ known =>
    ⟨machine.permits_setArena _, known.resumed waits⟩

end Following

end WorkerMachine
