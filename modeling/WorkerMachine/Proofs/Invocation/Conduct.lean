import WorkerMachine.Proofs.Invocation.Calling
import WorkerMachine.Proofs.Machine.Threads
/-!
# How threads conduct a call

The discipline of a call: its token tells what belongs to a thread and which task of the call the
thread is in charge of, and the token of the caller holds the notes on the call.  Threads that mind
their own business follow it, and so do the threads that carry out the workers of the call.
-/

namespace WorkerMachine

/-- What a thread has in hand in the course of a call. -/
structure Part where
  own : Belongings
  duty : Duty
  /-- The notes on the call, which only the caller has. -/
  notes : Option Notes

namespace Part

/-- The part of a thread that has not come yet. -/
def idle : Part := ⟨.none, .none, none⟩

/-- The part of a thread that has nothing to do with the call. -/
def bystander (own : Belongings) : Part := ⟨own, .none, none⟩

end Part

/-- The discipline of a call.  Endings are recorded for good.  The caller waits only while some worker
has not ended, and this worker waits for a thread, or another thread is in charge of it, or the
caller itself carries it out. -/
def Call.discipline (call : Call) (arenas : Set ArenaKey) : Discipline ThreadId Machine Part where
  fits := fun machine hands => ∃ notes, (hands call.thread).notes = some notes ∧
    call.Sound arenas machine (fun thread => (hands thread).duty) (fun thread => (hands thread).own)
      notes
  permits := fun machine later => machine.endings call.response <+: later.endings call.response
  excuses := fun machine hands thread => thread = call.thread →
    (machine.endings call.response).length < call.unit.workers.length ∧
      ∃ task, call.Makes task ∧ task ∉ (machine.endings call.response).map Ending.task ∧
        (task ∈ machine.waiting call.response ∨
          (∃ other, other ≠ thread ∧ (hands other).duty.task? = some task) ∨
          (hands thread).duty = .running task)
  permits_refl := fun machine => List.prefix_refl (machine.endings call.response)

namespace Call

variable {Answer : Type} {arenas : Set ArenaKey} {call : Call} {machine later : Machine}
  {hands : ThreadId → Part} {thread : ThreadId} {part token : Part} {notes : Notes}

theorem permits_of_same (same : later.endings call.response = machine.endings call.response) :
    (call.discipline arenas).permits machine later := by
  change machine.endings call.response <+: later.endings call.response
  simp only [same, List.prefix_refl]

/-- A thread takes another part, and the caller's notes stay. -/
theorem fits_update (notesOfCaller : (hands call.thread).notes = some notes)
    (sameNotes : part.notes = (hands thread).notes)
    (sound : call.Sound arenas later
      (Function.update (fun thread => (hands thread).duty) thread part.duty)
      (Function.update (fun thread => (hands thread).own) thread part.own) notes) :
    (call.discipline arenas).fits later (Function.update hands thread part) := by
  refine ⟨notes, ?_, ?_⟩
  · by_cases isCaller : call.thread = thread
    · rw [isCaller, Function.update_self, sameNotes, ← isCaller]
      exact notesOfCaller
    · rw [Function.update_of_ne isCaller]
      exact notesOfCaller
  · rw [show (fun other => (Function.update hands thread part other).duty) =
        Function.update (fun other => (hands other).duty) thread part.duty from
      funext fun other => Function.apply_update (fun _ part => part.duty) hands thread part other]
    rw [show (fun other => (Function.update hands thread part other).own) =
        Function.update (fun other => (hands other).own) thread part.own from
      funext fun other => Function.apply_update (fun _ part => part.own) hands thread part other]
    exact sound

theorem fits_note (isCaller : thread = call.thread) (noted : part.notes = some notes)
    (sound : call.Sound arenas later
      (Function.update (fun thread => (hands thread).duty) thread part.duty)
      (Function.update (fun thread => (hands thread).own) thread part.own) notes) :
    (call.discipline arenas).fits later (Function.update hands thread part) := by
  refine ⟨notes, ?_, ?_⟩
  · rw [isCaller, Function.update_self]
    exact noted
  · rw [show (fun other => (Function.update hands thread part other).duty) =
        Function.update (fun other => (hands other).duty) thread part.duty from
      funext fun other => Function.apply_update (fun _ part => part.duty) hands thread part other]
    rw [show (fun other => (Function.update hands thread part other).own) =
        Function.update (fun other => (hands other).own) thread part.own from
      funext fun other => Function.apply_update (fun _ part => part.own) hands thread part other]
    exact sound

theorem fits_spared (fits : (call.discipline arenas).fits machine hands)
    (holding : hands thread = token) {grown : Belongings}
    (spares : Spares arenas token.own grown machine later) :
    (call.discipline arenas).fits later
      (Function.update hands thread { token with own := grown }) := by
  obtain ⟨notes, notesOfCaller, sound⟩ := fits
  subst holding
  refine fits_update notesOfCaller rfl ?_
  have kept : Function.update (fun thread => (hands thread).duty) thread (hands thread).duty =
      fun thread => (hands thread).duty :=
    Function.update_eq_self thread _
  rw [kept]
  exact sound.spared spares

theorem fits_within (fits : (call.discipline arenas).fits machine hands)
    (holding : hands thread = token) : token.own.Within arenas machine := by
  obtain ⟨_, _, sound⟩ := fits
  subst holding
  exact (sound.owns thread).1

theorem permits_spared (fits : (call.discipline arenas).fits machine hands)
    (holding : hands thread = token) {grown : Belongings}
    (spares : Spares arenas token.own grown machine later) :
    (call.discipline arenas).permits machine later := by
  obtain ⟨_, _, sound⟩ := fits
  subst holding
  exact permits_of_same (spares.endings call.response sound.opened (sound.owns thread).2.1)

end Call

/-- Who minds his own business follows the discipline.  The caller does nothing of the kind but
carry out a worker. -/
theorem Process.Minds.follows {Answer : Type} {arenas : Set ArenaKey} {call : Call}
    {thread : ThreadId} {process : Process Machine Answer} {token : Part}
    {goal : Answer → Belongings → Prop} (minds : process.Minds arenas token.own goal)
    (busy : thread = call.thread → ∃ task, token.duty = .running task) :
    process.Follows (call.discipline arenas) thread token fun answer last =>
      goal answer last.own ∧ token.own.contexts ⊆ last.own.contexts ∧
        token.own.responses ⊆ last.own.responses ∧
        last.duty = token.duty ∧ last.notes = token.notes := by
  induction process generalizing token with
  | done answer =>
      exact ⟨minds, subset_rfl, subset_rfl, rfl, rfl⟩
  | step ready update next inductionHypothesis =>
      intro machine hands fits holding
      refine ⟨fun isReady => ?_, fun _ isCaller => ?_⟩
      · obtain ⟨grown, spares, rest⟩ := minds machine (Call.fits_within fits holding) isReady
        refine ⟨Call.permits_spared fits holding spares, { token with own := grown },
          Call.fits_spared fits holding spares, ?_⟩
        have goesOn := @inductionHypothesis machine { token with own := grown } rest busy
        refine goesOn.weaken ?_
        rintro answer last ⟨reached, keepsContexts, keepsResponses, sameDuty, sameNotes⟩
        exact ⟨reached, spares.keepsContexts.trans keepsContexts,
          spares.keepsResponses.trans keepsResponses, sameDuty, sameNotes⟩
      · obtain ⟨notes, _, sound⟩ := fits
        obtain ⟨task, runs⟩ := busy isCaller
        have isRunning : (hands thread).duty = .running task := by
          rw [holding]
          exact runs
        have inCharge : (hands thread).duty.task? = some task := by
          rw [isRunning]
          rfl
        obtain ⟨isMade, notEnded⟩ := sound.ledger.of_task? inCharge
        exact ⟨sound.length_endings_lt inCharge, task, sound.makes task isMade, notEnded,
          .inr (.inr isRunning)⟩
  | sleep milliseconds next inductionHypothesis =>
      exact inductionHypothesis minds busy

section Spared

variable {Answer : Type} {arenas : Set ArenaKey} {call : Call} {thread : ThreadId} {token : Part}

/-- A change that spares what belongs to others keeps to the discipline. -/
theorem Process.spared_modify {update : Machine → Machine}
    (spared : ∀ machine, token.own.Within arenas machine →
      Spares arenas token.own token.own machine (update machine)) :
    (modify update).Stays (call.discipline arenas) thread token fun _ => True :=
  follows_modify fun machine _ fits holding =>
    have spares := spared machine (Call.fits_within fits holding)
    ⟨Call.permits_spared fits holding spares, token, Call.fits_spared fits holding spares, rfl,
      trivial⟩

theorem Effect.spared_modify {update : Machine → Machine}
    (spared : ∀ machine, token.own.Within arenas machine →
      Spares arenas token.own token.own machine (update machine)) :
    (modify update).Stays (call.discipline arenas) thread token fun _ => True :=
  stays_work (Process.spared_modify spared)

theorem Effect.spared_atomically {operation : Machine → Answer × Machine}
    (spared : ∀ machine, token.own.Within arenas machine →
      Spares arenas token.own token.own machine (operation machine).2) :
    (atomically operation).Stays (call.discipline arenas) thread token fun _ => True :=
  follows_atomically fun machine _ fits holding =>
    have spares := spared machine (Call.fits_within fits holding)
    ⟨Call.permits_spared fits holding spares, token, Call.fits_spared fits holding spares, rfl,
      trivial⟩

theorem Context.release_spared {context : Context} (mine : context.place ∈ token.own.contexts) :
    context.release.Stays (call.discipline arenas) thread token fun _ => True :=
  Process.spared_modify fun _ within =>
    Spares.of_context within mine fun records => records.release_altersOnly context.id

theorem tally_spared (count : Tallies → Tallies) {upset : Interruption → Part → Prop} :
    (tally count).Follows (call.discipline arenas) thread token (fun _ last => last = token)
      upset :=
  Effect.follows_work (Process.Follows.weaken (Process.spared_modify fun _ within =>
    Spares.of_same within rfl rfl rfl rfl) fun _ _ => And.left)

theorem finish_spared {context : Context} (mine : context.place ∈ token.own.contexts)
    (last : ContextState) :
    (Effect.modify (Machine.alterArena context.arena fun records =>
      records.finish context.id last)).Stays (call.discipline arenas) thread token fun _ => True :=
  Effect.spared_modify fun _ within =>
    Spares.of_context within mine fun records => records.finish_altersOnly context.id last

theorem contributeTo_spared {response : ResponseId} (responds : response ∈ token.own.responses)
    (worker : ContextId) (outcome : WorkerOutcome) (result : RegisterFile) :
    (contributeTo response worker outcome result).Stays (call.discipline arenas) thread token
      fun _ => True := by
  refine Effect.Stays.bind (Effect.spared_atomically fun _ within =>
    Spares.of_contribution within responds worker outcome result) fun _ _ => ?_
  exact Effect.stays_ofAccess fun _ _ => trivial

theorem endTask_spared {task : Task} (responds : task.response ∈ token.own.responses)
    (outcome : Except Interruption WorkerExit) (after : Context) :
    (Effect.atomically (Machine.endTask task outcome after)).Stays (call.discipline arenas) thread
      token fun _ => True :=
  Effect.spared_atomically fun _ within => Spares.of_endTask within responds outcome after

end Spared

/-! ## Tasks that are none of the call -/

namespace Station

variable {arenas : Set ArenaKey} {call : Call} {thread : ThreadId} {station : Station}
  {interpreter : Interpreter}

/-- A body minds its own business on a thread to which its context belongs. -/
theorem body_follows (discreet : interpreter.Discreet arenas) {context : Context} {token : Part}
    (inArenas : context.arena ∈ arenas) (mine : context.place ∈ token.own.contexts)
    (busy : thread = call.thread → ∃ task, token.duty = .running task) :
    ((interpreter station).runOn context).Follows (call.discipline arenas) thread token
      fun answer last => context.LeftAs answer.2 ∧ token.own.contexts ⊆ last.own.contexts ∧
        token.own.responses ⊆ last.own.responses ∧ last.duty = token.duty ∧
        last.notes = token.notes := by
  have minds : ((interpreter station).runOn context).Minds arenas token.own fun answer _ =>
      context.LeftAs answer.2 := by
    rw [← Belongings.ofContext_union mine]
    exact (discreet station context inArenas).frame
  exact minds.follows busy

/-- What a thread has in hand while it carries out a task that is none of the call. -/
def Aside (task : Task) (token : Part) : Prop :=
  (Belongings.ofTask task).contexts ⊆ token.own.contexts ∧
    (Belongings.ofTask task).responses ⊆ token.own.responses ∧
    token.duty = .none ∧ token.notes = none

/-- A task that is none of the call is of no concern to it. -/
theorem carryOut_stranger (discreet : interpreter.Discreet arenas) {task : Task}
    (inArenas : task.context.arena ∈ arenas) (notCaller : thread ≠ call.thread) {token : Part}
    (aside : Aside task token) :
    (station.carryOut interpreter task).Follows (call.discipline arenas) thread token
      (fun _ => Aside task) fun _ => Aside task := by
  have mine : ∀ {token}, Aside task token → task.context.place ∈ token.own.contexts :=
    fun aside => aside.1 rfl
  have responds : ∀ {token}, Aside task token → task.response ∈ token.own.responses :=
    fun aside => aside.2.1 rfl
  unfold carryOut
  refine Effect.Follows.followedBy (show Effect.Follows _ _ _ token
      (fun _ => Aside task) (fun _ => Aside task) from ?_) ?_
  · refine Effect.Follows.bind (Effect.Stays.holding (Effect.spared_atomically fun machine within =>
      Spares.of_startTask within (mine aside) (responds aside)) aside) ?_
    intro outcome last stillAside
    cases outcome with
    | error fault =>
        refine Effect.Follows.bind (Effect.Stays.holding
          (contributeTo_spared (responds stillAside) _ _ _) stillAside) ?_
        exact fun _ _ aside => aside
    | ok state =>
        refine Effect.Follows.bind (Effect.follows_work (body_follows discreet inArenas
          (mine stillAside) fun isCaller => absurd isCaller notCaller)) ?_
        rintro ⟨outcome, after⟩ middle ⟨left, keepsContexts, keepsResponses, sameDuty, sameNotes⟩
        have middleAside : Aside task middle :=
          ⟨stillAside.1.trans keepsContexts, stillAside.2.1.trans keepsResponses,
            sameDuty.trans stillAside.2.2.1, sameNotes.trans stillAside.2.2.2⟩
        have afterMine : after.place ∈ middle.own.contexts := by
          rw [left.place]
          exact mine middleAside
        refine Effect.Follows.bind (Effect.Stays.holding (finish_spared afterMine _)
          middleAside) ?_
        intro _ last stillAside
        refine Effect.Follows.bind (Effect.Stays.holding
          (endTask_spared (responds stillAside) outcome after) stillAside) ?_
        intro handedIn last stillAside
        refine Effect.Follows.bind (Effect.Stays.holding
          (Effect.stays_ofAccess fun _ _ => trivial) stillAside) ?_
        exact fun _ _ aside => aside
  · rintro outcome last reached
    have stillAside : Aside task last := by
      cases outcome with
      | ok state =>
          exact reached
      | error interruption =>
          exact reached
    refine Process.Follows.weaken (Context.release_spared (mine stillAside)) ?_
    rintro _ _ ⟨rfl, _⟩
    exact reached

/-! ## Tasks of the call -/

theorem startTask_own {task : Task} {token : Part} (holds : token.duty = .holding task)
    {upset : Interruption → Part → Prop} :
    (Effect.atomically (Machine.startTask task)).Follows (call.discipline arenas) thread token
      (fun outcome last => outcome = .ok .runnable ∧
        last = ⟨.ofContext task.context, .running task, token.notes⟩ ∧ call.Makes task ∧
        call.parent.arena ∈ arenas) upset := by
  refine Effect.follows_atomically fun machine hands fits holding => ?_
  obtain ⟨notes, notesOfCaller, sound⟩ := fits
  have hasDuty : (hands thread).duty = .holding task := by
    rw [holding]
    exact holds
  have unbegun : (hands thread).duty.unbegun? = some (task, .runnable) := by
    rw [hasDuty]
    rfl
  have isRunnable := sound.states _ _ (.unbegun unbegun)
  have begins : Machine.startTask task machine = (.ok .runnable,
      (machine.alterArena task.context.arena fun records =>
        (records.transition task.context.id .running).2).record (.started task)) := by
    have moved : Machine.inArena task.context.arena
        (fun records => records.transition task.context.id .running) machine =
          (.ok .runnable, machine.alterArena task.context.arena fun records =>
            (records.transition task.context.id .running).2) :=
      Prod.ext (Arena.state?_transition isRunnable rfl).1 rfl
    unfold Machine.startTask
    rw [moved]
  rw [begins]
  refine ⟨Call.permits_of_same rfl, ⟨.ofContext task.context, .running task, token.notes⟩, ?_, rfl, rfl,
    sound.makes task (sound.ledger.unbegun _ _ _ unbegun).1, sound.inArenas⟩
  refine Call.fits_update notesOfCaller ?_ (sound.commence hasDuty)
  rw [holding]

/-- A thread hands in the ending of a task of the call.  Unless the call is given up, the ending is
accepted. -/
theorem endTask_own (unitSound : call.unit.Sound) {ending : Ending}
    (proper : ending.Proper call.unit) {token : Part} (runs : token.duty = .running ending.task)
    {upset : Interruption → Part → Prop} :
    (Effect.atomically (Machine.endTask ending.task ending.outcome ending.after)).Follows
      (call.discipline arenas) thread token
      (fun handedIn last => last = ⟨token.own, .none, token.notes⟩ ∧
        ∀ notes, thread = call.thread → token.notes = some notes → notes.givenUp = false →
          ∃ completed, handedIn = .ok completed) upset := by
  refine Effect.follows_atomically fun machine hands fits holding => ?_
  obtain ⟨notes, notesOfCaller, sound⟩ := fits
  have hasDuty : (hands thread).duty = .running ending.task := by
    rw [holding]
    exact runs
  refine ⟨?_, ⟨token.own, .none, token.notes⟩, ?_, rfl, ?_⟩
  · change machine.endings call.response <+: (Machine.endTask _ _ _ machine).2.endings _
    rw [machine.endings_endTask]
    split
    · exact List.prefix_append _ _
    · exact List.prefix_refl _
  · refine Call.fits_update notesOfCaller ?_ ?_
    · rw [holding]
    · have kept : Function.update (fun thread => (hands thread).own) thread token.own =
          fun thread => (hands thread).own := by
        rw [← holding]
        exact Function.update_eq_self thread _
      rw [kept]
      exact sound.finish unitSound hasDuty proper
  · rintro told rfl isTold notGivenUp
    rw [holding, isTold] at notesOfCaller
    cases notesOfCaller
    exact ⟨_, sound.endTask_accepted unitSound hasDuty proper notGivenUp⟩

/-- A thread that has a task of the call in hand carries it out.  Unless the call is given up, the
caller itself is not interrupted in doing so. -/
theorem carryOut_own (discreet : interpreter.Discreet arenas) (unitSound : call.unit.Sound)
    {task : Task} {token : Part} (holds : token.duty = .holding task) :
    (station.carryOut interpreter task).Follows (call.discipline arenas) thread token
      (fun _ last => last.duty = .none ∧ last.notes = token.notes)
      fun _ last => last.duty = .none ∧ last.notes = token.notes ∧
        ∀ notes, thread = call.thread → token.notes = some notes → notes.givenUp = true := by
  unfold carryOut
  refine Effect.Follows.followedBy (show Effect.Follows _ _ _ token
      (fun _ last => task.context.place ∈ last.own.contexts ∧ last.duty = .none ∧
        last.notes = token.notes)
      (fun _ last => task.context.place ∈ last.own.contexts ∧ last.duty = .none ∧
        last.notes = token.notes ∧
        ∀ notes, thread = call.thread → token.notes = some notes → notes.givenUp = true) from ?_) ?_
  · refine (startTask_own holds).bind ?_
    rintro _ _ ⟨rfl, rfl, makes, inArenas⟩
    have isMine : task.context.place ∈ (Belongings.ofContext task.context).contexts := rfl
    refine Effect.Follows.bind (Effect.follows_work (body_follows discreet
      (makes.arena ▸ inArenas) isMine fun _ => ⟨task, rfl⟩)) ?_
    rintro ⟨outcome, after⟩ middle ⟨left, keepsContexts, _, sameDuty, sameNotes⟩
    have stillMine : task.context.place ∈ middle.own.contexts := keepsContexts isMine
    have afterMine : after.place ∈ middle.own.contexts := by
      rw [left.place]
      exact stillMine
    have proper : Ending.Proper call.unit ⟨task, outcome, after⟩ :=
      { sameId := left.id
        activity := ⟨task.worker, makes.worker, makes.activity⟩
        sameActivity := left.activity
        sized := by
          rw [left.sized, makes.results]
          exact RegisterFile.sizes_ofSizes _ }
    have finished : (Effect.modify (Machine.alterArena after.arena fun records =>
        records.finish after.id (judge after outcome).lastState)).Follows (call.discipline arenas)
          thread middle (fun _ last => last = middle) fun _ last =>
            task.context.place ∈ last.own.contexts ∧ last.duty = .none ∧
              last.notes = token.notes ∧
              ∀ notes, thread = call.thread → token.notes = some notes → notes.givenUp = true :=
      Effect.follows_work (Process.Follows.weaken (Process.spared_modify fun _ within =>
        Spares.of_context within afterMine fun records => records.finish_altersOnly after.id _)
          fun _ _ => And.left)
    refine finished.bind ?_
    rintro _ _ rfl
    refine (endTask_own unitSound proper (sameDuty.trans rfl)).bind ?_
    rintro handedIn _ ⟨rfl, accepted⟩
    refine Effect.Follows.bind (Effect.follows_ofAccess (fun _ _ => ⟨stillMine, rfl, sameNotes⟩)
      fun overrun failed => ⟨stillMine, rfl, sameNotes, ?_⟩) fun _ _ reached => reached
    intro notes isCaller isNoted
    by_contra notGivenUp
    obtain ⟨completed, isCompleted⟩ := accepted notes isCaller (sameNotes.trans isNoted)
      (Bool.not_eq_true _ ▸ notGivenUp)
    rw [isCompleted] at failed
    cases failed
  · rintro outcome last reached
    have stillMine : task.context.place ∈ last.own.contexts := by
      cases outcome with
      | ok state =>
          exact reached.1
      | error interruption =>
          exact reached.1
    refine Process.Follows.weaken (Context.release_spared stillMine) ?_
    rintro _ _ ⟨rfl, _⟩
    cases outcome with
    | ok state =>
        exact reached.2
    | error interruption =>
        exact reached.2

end Station

end WorkerMachine
