import WorkerMachine.Proofs.Machine.Calmness
import WorkerMachine.Proofs.Manifest.Bodies
import WorkerMachine.Proofs.Script.Following
import WorkerMachine.Proofs.Settling.Finishes
/-!
# Only what has started ends

A thread has in hand the tasks whose workers it has let begin, and ends only those.  So every worker
that has ended has started, and a worker that has been dropped before it started never starts later.
-/

namespace WorkerMachine

def Machine.EndsStarted (machine : Machine) : Prop :=
  ∀ task outcome left, .ended task outcome left ∈ machine.history → .started task ∈ machine.history

/-- Every worker that has ended since had started before. -/
def Machine.EndsAfterStart (before after : Machine) : Prop :=
  ∀ task outcome left, .ended task outcome left ∈ after.history →
    .ended task outcome left ∈ before.history ∨ .started task ∈ before.history

/-- A task whose context cannot be moved on does not begin; otherwise its beginning is noted. -/
theorem Machine.history_startTask (task : Task) (machine : Machine) :
    (∃ fault, (machine.startTask task).1 = .error fault) ∧
        (machine.startTask task).2.history = machine.history ∨
      (∃ state, (machine.startTask task).1 = .ok state) ∧
        (machine.startTask task).2.history = .started task :: machine.history := by
  unfold Machine.startTask
  split
  · next moved =>
    have history : _ = machine.history := congrArg (fun answer => answer.2.history) moved.symm
    exact .inr ⟨⟨_, rfl⟩, congrArg (Happening.started task :: ·) history⟩
  · next moved =>
    have history := congrArg (fun answer => answer.2.history) moved.symm
    exact .inl ⟨⟨_, rfl⟩, history⟩

/-- The discipline of threads that end only what they have let begin. -/
def Discipline.endingStarted : Discipline ThreadId Machine (List Task) where
  fits machine hands :=
    machine.EndsStarted ∧ ∀ thread, ∀ task ∈ hands thread, .started task ∈ machine.history
  permits := Machine.EndsAfterStart
  excuses _ _ _ := True
  permits_refl _ _ _ _ := .inl

namespace Discipline

variable {thread : ThreadId} {token : List Task}

theorem endingStarted_toleratesCalm : endingStarted.ToleratesCalm thread token where
  tolerates := by
    rintro machine later hands ⟨ends, begun⟩ _ calm
    have startedSame : ∀ task, .started task ∈ later.history ↔ .started task ∈ machine.history := by
      intro task
      rcases calm.history with unchanged | ⟨package, context, called⟩
      · rw [unchanged]
      · simp [called]
    have endedSame : ∀ task outcome left, .ended task outcome left ∈ later.history ↔
        .ended task outcome left ∈ machine.history := by
      intro task outcome left
      rcases calm.history with unchanged | ⟨package, context, called⟩
      · rw [unchanged]
      · simp [called]
    refine ⟨fun task outcome left ended => .inl ((endedSame task outcome left).mp ended), ?_, ?_⟩
    · intro task outcome left ended
      exact (startedSame task).mpr (ends task outcome left ((endedSame task outcome left).mp ended))
    · intro thread task member
      exact (startedSame task).mpr (begun thread task member)
  excuses := fun _ _ _ _ => trivial

/-- A task is taken in hand as its worker begins. -/
theorem startTask_endingStarted (task : Task) {upset : Interruption → List Task → Prop} :
    (Effect.atomically (Machine.startTask task)).Follows endingStarted thread token
      (fun answer last => (∃ fault, answer = .error fault) ∧ last = token ∨
        (∃ state, answer = .ok state) ∧ last = task :: token) upset := by
  apply Effect.follows_atomically
  rintro machine hands ⟨ends, begun⟩ rfl
  rcases machine.history_startTask task with ⟨refused, history⟩ | ⟨entered, history⟩
  · refine ⟨fun other outcome left ended => .inl (history ▸ ended), hands thread, ?_,
      .inl ⟨refused, rfl⟩⟩
    rw [Function.update_eq_self]
    constructor
    · intro other outcome left ended
      rw [history] at ended ⊢
      exact ends other outcome left ended
    · intro other own member
      rw [history]
      exact begun other own member
  · have endedBefore : ∀ {other outcome left},
        .ended other outcome left ∈ (machine.startTask task).2.history →
          .ended other outcome left ∈ machine.history := by
      intro other outcome left ended
      rw [history] at ended
      exact (List.mem_cons.mp ended).resolve_left fun never => nomatch never
    refine ⟨fun other outcome left ended => .inl (endedBefore ended), task :: hands thread, ⟨?_, ?_⟩,
      .inr ⟨entered, rfl⟩⟩
    · intro other outcome left ended
      rw [history]
      exact List.mem_cons_of_mem _ (ends other outcome left (endedBefore ended))
    · rw [history]
      intro other own member
      by_cases same : other = thread
      · subst same
        rw [Function.update_self] at member
        rcases List.mem_cons.mp member with rfl | member
        · exact List.mem_cons_self
        · exact List.mem_cons_of_mem _ (begun other own member)
      · rw [Function.update_of_ne same] at member
        exact List.mem_cons_of_mem _ (begun other own member)

/-- A task that is in hand is put down as its contribution is handed in. -/
theorem endTask_endingStarted (task : Task) (outcome : Except Interruption WorkerExit)
    (context : Context) {upset : Interruption → List Task → Prop} :
    (Effect.atomically (Machine.endTask task outcome context)).Follows endingStarted thread
      (task :: token) (fun _ last => last = token) upset := by
  apply Effect.follows_atomically
  rintro machine hands ⟨ends, begun⟩ holding
  have started : .started task ∈ machine.history := by
    apply begun thread
    rw [holding]
    exact List.mem_cons_self
  have history : (machine.endTask task outcome context).2.history =
      .ended task outcome context :: machine.history := rfl
  refine ⟨?_, token, ⟨?_, ?_⟩, rfl⟩
  · intro other exit left ended
    rw [history] at ended
    rcases List.mem_cons.mp ended with isEnd | ended
    · cases isEnd
      exact .inr started
    · exact .inl ended
  · intro other exit left ended
    rw [history] at ended ⊢
    rcases List.mem_cons.mp ended with isEnd | ended
    · cases isEnd
      exact List.mem_cons_of_mem _ started
    · exact List.mem_cons_of_mem _ (ends other exit left ended)
  · intro other
    rw [history]
    by_cases same : other = thread
    · subst same
      rw [Function.update_self]
      intro own member
      apply List.mem_cons_of_mem
      apply begun other
      rw [holding]
      exact List.mem_cons_of_mem _ member
    · rw [Function.update_of_ne same]
      exact fun own member => List.mem_cons_of_mem _ (begun other own member)

variable {station : Station}

/-- A task is run with nothing left of it in hand. -/
theorem carryOut_endingStarted {interpreter : Interpreter}
    (bodies : ∀ token context, (interpreter station).Stays endingStarted thread token context
      (fun _ _ => True) fun _ => True) (task : Task) :
    (station.carryOut interpreter task).Stays endingStarted thread token fun _ => True := by
  have tolerance : ∀ token, endingStarted.ToleratesMild thread token :=
    fun _ => endingStarted_toleratesCalm.mild
  apply Effect.Stays.followedBy _ (release_stays (tolerance token) task.context)
  apply Effect.Follows.bind (startTask_endingStarted task)
  rintro _ _ (⟨⟨fault, rfl⟩, rfl⟩ | ⟨⟨state, rfl⟩, rfl⟩)
  · refine (contributeTo_stays (tolerance _) _ _ _ _).bind fun _ _ => ?_
    exact Effect.stays_pure trivial
  · refine Effect.Follows.bind (Effect.follows_work (bodies (task :: token) task.context).run) ?_
    rintro ⟨outcome, context⟩ _ ⟨rfl, _⟩
    refine Effect.Follows.bind (Effect.follows_work (Process.tolerated_modify (tolerance _)
      fun machine => machine.mild_alterArena _ fun arena => arena.finish_ages _ _)) ?_
    rintro _ _ ⟨rfl, _⟩
    apply Effect.Follows.bind (endTask_endingStarted task outcome context)
    rintro _ _ rfl
    exact (Effect.stays_ofAccess fun _ _ => trivial).bind fun _ _ => Effect.stays_pure trivial

end Discipline

section Crowds

variable {Answer : Type} {setup : Setup} {bodies : Table BodyKey (List Script.Instruction)}
  {thread : ThreadId} {depth : Nat} {crowd later : Crowd ThreadId Machine (Option Answer)}

theorem Setup.tasks_stay_endingStarted (setup : Setup) (bodies : Table BodyKey (List Script.Instruction))
    (thread : ThreadId) (depth : Nat) (token : List Task) :
    (setup.station (Script.interpreter bodies) thread depth).TasksStay .endingStarted thread token :=
  Script.tasks_stay bodies setup thread (fun _ => True)
    (fun _ _ => Discipline.endingStarted_toleratesCalm.mild)
    (fun _ tasks token _ => Station.gates_stay_calm Discipline.endingStarted_toleratesCalm
      (tasks token trivial))
    (fun _ _ => Discipline.endingStarted_toleratesCalm.stores)
    (fun _ carries _ _ task => Discipline.carryOut_endingStarted
      (fun token context => carries token trivial context) task)
    depth token trivial

/-- Among hosts that make calls by name, and the threads that are started for them, only workers that
have started end. -/
theorem Crowd.orderly_endingStarted (fresh : crowd.state.history = [])
    (hosts : ∀ thread process, crowd.process thread = some process →
      (setup.station (Script.interpreter bodies) thread depth).CallsByName process) :
    crowd.Orderly .endingStarted [] fun _ _ _ => True := by
  refine Crowd.orderly_of_callsByName (fun _ => Discipline.endingStarted_toleratesCalm.mild)
    (fun thread => setup.tasks_stay_endingStarted bodies thread depth [])
    (fun thread => Station.gates_stay_calm Discipline.endingStarted_toleratesCalm
      (setup.tasks_stay_endingStarted bodies thread depth [])) ⟨?_, ?_⟩ hosts
  · intro task outcome left ended
    rw [fresh] at ended
    cases ended
  · intro thread task member
    cases member

theorem Setup.starts_welcoming_endingStarted (setup : Setup)
    (bodies : Table BodyKey (List Script.Instruction)) (depth : Nat) :
    Crowd.Welcoming .endingStarted [] (fun _ _ _ => True)
      (setup.Starts (Script.interpreter bodies) depth :
        Arrivals ThreadId Machine (Option Answer)) :=
  Setup.starts_welcoming_mild (fun _ => Discipline.endingStarted_toleratesCalm.mild)
    fun thread => setup.tasks_stay_endingStarted bodies thread depth []

end Crowds

end WorkerMachine
