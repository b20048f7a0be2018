import Mathlib.Data.Set.Basic
import WorkerMachine.Proofs.Gate.Crossing
/-!
# No ring of threads that wait for good

A thread announces its wait before it walks along the waits of the others, so of the threads that
form a ring the last one to announce its wait finds all others announced.  What could spoil its walk
is a mark that is still missing: but a thread that has not marked its package yet waits for nothing,
and so it does not stand on the ring.  Hence on every ring there is a thread whose walk is going to
come back to it, and that thread is refused.
-/

namespace WorkerMachine

namespace Gate

variable {gate later : Gate} {thread : ThreadId}

/-- A walk along the waits that is going to find the ring on which its thread stands. -/
def OnTrack (gate : Gate) (thread : ThreadId) : GatePhase → Prop
  | .countWaits | .refuse => True
  | .findHolder package turns =>
    ∃ passed member distance, gate.follow passed thread = some member ∧
      gate.waits.get? member = some package ∧ 0 < distance ∧ distance ≤ turns ∧
      gate.follow distance member = some thread
  | .findWait holder turns =>
    ∃ passed distance, gate.follow passed thread = some holder ∧ 0 < distance ∧
      distance ≤ turns ∧ gate.follow distance holder = some thread
  | _ => False

/-- Two gates at which everything that is reached from a thread waits for the same. -/
def SameWay (gate later : Gate) (thread : ThreadId) : Prop :=
  ∀ steps reached, gate.follow steps thread = some reached →
    later.next? reached = gate.next? reached ∧
      later.waits.get? reached = gate.waits.get? reached

theorem SameWay.follow (same : SameWay gate later thread) (steps : Nat) :
    later.follow steps thread = gate.follow steps thread :=
  follow_congr (fun steps reached reaches => (same steps reached reaches).1) steps

theorem SameWay.onRing (same : SameWay gate later thread) (onRing : gate.OnRing thread) :
    later.OnRing thread := by
  obtain ⟨steps, positive, around⟩ := onRing
  exact ⟨steps, positive, (same.follow steps).trans around⟩

theorem SameWay.symm (same : SameWay gate later thread) : SameWay later gate thread := by
  intro steps reached reaches
  rw [same.follow] at reaches
  obtain ⟨sameNext, sameWait⟩ := same steps reached reaches
  exact ⟨sameNext.symm, sameWait.symm⟩

/-- The way from further on is the same, too. -/
theorem SameWay.of_follow {passed : Nat} {member : ThreadId} (same : SameWay gate later thread)
    (passes : gate.follow passed thread = some member) : SameWay gate later member :=
  fun steps reached reaches => same (passed + steps) reached (follow_trans passes reaches)

theorem OnTrack.of_sameWay {phase : GatePhase} (onTrack : gate.OnTrack thread phase)
    (same : SameWay gate later thread) : later.OnTrack thread phase := by
  cases phase with
  | countWaits | refuse =>
      trivial
  | findHolder package turns =>
      obtain ⟨passed, member, distance, passes, waits, positive, within, leads⟩ := onTrack
      refine ⟨passed, member, distance, ?_, ?_, positive, within, ?_⟩
      · rw [same.follow]
        exact passes
      · rw [(same passed member passes).2]
        exact waits
      · rw [(same.of_follow passes).follow]
        exact leads
  | findWait holder turns =>
      obtain ⟨passed, distance, passes, positive, within, leads⟩ := onTrack
      refine ⟨passed, distance, ?_, positive, within, ?_⟩
      · rw [same.follow]
        exact passes
      · rw [(same.of_follow passes).follow]
        exact leads
  | _ =>
      cases onTrack

/-- A walk that is on track stays on track as long as nothing changes but its own phase, up to the
refusal. -/
theorem OnTrack.advance {package : String} {phase : GatePhase} (onRing : gate.OnRing thread)
    (waits : gate.waits.get? thread = some package) (onTrack : gate.OnTrack thread phase)
    (notRefused : phase ≠ .refuse) (descends : ContextId → Bool) :
    gate.OnTrack thread (gate.advance thread package descends phase).1 := by
  cases phase with
  | countWaits =>
      obtain ⟨distance, positive, short, around⟩ := onRing.exists_short
      exact ⟨0, thread, distance, rfl, waits, positive, by omega, around⟩
  | refuse =>
      exact absurd rfl notRefused
  | findHolder asked turns =>
      obtain ⟨passed, member, distance, passes, waitsFor, positive, within, leads⟩ := onTrack
      obtain ⟨turns, rfl⟩ : ∃ fewer, turns = fewer + 1 := ⟨turns - 1, by omega⟩
      obtain ⟨distance, rfl⟩ : ∃ fewer, distance = fewer + 1 := ⟨distance - 1, by omega⟩
      change (gate.next? member).bind (gate.follow distance) = some thread at leads
      obtain ⟨holder, follows, rest⟩ := Option.bind_eq_some_iff.mp leads
      obtain ⟨awaited, waitsSame, held⟩ := exists_wait_of_next follows
      rw [waitsFor] at waitsSame
      cases waitsSame
      obtain ⟨mark, marked, holds⟩ := Option.map_eq_some_iff.mp held
      simp only [Gate.advance, marked]
      split
      · trivial
      · next different =>
        rw [holds]
        refine ⟨passed + 1, distance, ?_, ?_, by omega, rest⟩
        · rw [follow_succ, passes]
          exact follows
        · refine Nat.pos_of_ne_zero fun isZero => ?_
          subst isZero
          cases rest
          exact different holds
  | findWait holder turns =>
      obtain ⟨passed, distance, passes, positive, within, leads⟩ := onTrack
      obtain ⟨next, follows⟩ : ∃ next, gate.next? holder = some next :=
        (onRing.of_follow passes).exists_next
      obtain ⟨awaited, waitsFor, held⟩ := exists_wait_of_next follows
      simp only [Gate.advance, waitsFor]
      exact ⟨passed, holder, distance, passes, waitsFor, positive, within, leads⟩
  | _ =>
      cases onTrack

end Gate

/-- On every ring there is a thread whose walk is on track. -/
def RingsWatched (gate : Gate) (hands : ThreadId → List Errand) : Prop :=
  ∀ thread, gate.OnRing thread → ∃ steps watcher package phase rest,
    gate.follow steps thread = some watcher ∧
      hands watcher = .passing package phase :: rest ∧ gate.OnTrack watcher phase

/-- What is true of a gate and the errands of all threads between any two turns. -/
structure GateSound (gate : Gate) (hands : ThreadId → List Errand) : Prop where
  /-- The inits that run are those whose cells are taken over. -/
  running : ∀ thread package,
    package ∈ runningInits (hands thread) ↔ gate.runner? package = some thread
  /-- No thread runs the init of one package twice. -/
  once : ∀ thread, (runningInits (hands thread)).Nodup
  /-- While the body of an init is carried out, its package is marked with its thread. -/
  marks : ∀ thread package context, .marked package context ∈ hands thread →
    gate.marks.get? package = some ⟨context, thread⟩
  /-- The waits are those of the errands. -/
  waits : ∀ thread, gate.waits.get? thread = awaited? (hands thread)
  /-- Only the body of an init calls for further inits. -/
  bodies : ∀ thread, OnlyBodies (hands thread).tail
  /-- Every ring is being found out. -/
  watched : RingsWatched gate hands

section Preservation

variable {gate later : Gate} {hands : ThreadId → List Errand} {thread : ThreadId}
  {errands : List Errand}

/-! ## The inits that run -/

/-- No two threads run the init of one package. -/
theorem GateSound.alone (sound : GateSound gate hands) {left right : ThreadId} {package : String}
    (leftRuns : package ∈ runningInits (hands left))
    (rightRuns : package ∈ runningInits (hands right)) : left = right := by
  rw [sound.running] at leftRuns rightRuns
  rw [leftRuns] at rightRuns
  exact Option.some.inj rightRuns

theorem GateSound.running_turn (sound : GateSound gate hands)
    (turn : Turn thread gate (hands thread) later errands) (other : ThreadId) (package : String) :
    package ∈ runningInits (Function.update hands thread errands other) ↔
      later.runner? package = some other := by
  have others : other ≠ thread →
      (package ∈ runningInits (Function.update hands thread errands other) ↔
        gate.runner? package = some other) := by
    intro different
    rw [Function.update_of_ne different]
    exact sound.running other package
  have own : package ∈ runningInits (hands thread) ↔ gate.runner? package = some thread :=
    sound.running thread package
  rcases turn.cells with ⟨sameInits, sameRunners⟩ | ⟨changed, sameRunners, taken | ended⟩
  · rw [sameRunners]
    by_cases mine : other = thread
    · subst mine
      rw [Function.update_self, sameInits]
      exact own
    · exact others mine
  · obtain ⟨notTaken, nowTaken, more⟩ := taken
    by_cases same : changed = package
    · subst same
      rw [nowTaken]
      by_cases mine : other = thread
      · subst mine
        rw [Function.update_self, more]
        simp
      · rw [others mine, notTaken]
        simp [Ne.symm mine]
    · rw [sameRunners package same]
      by_cases mine : other = thread
      · subst mine
        rw [Function.update_self, more, List.mem_cons, ← own]
        simp [Ne.symm same]
      · exact others mine
  · obtain ⟨nowFree, fewer⟩ := ended
    have distinct := sound.once thread
    rw [fewer] at distinct own
    obtain ⟨notTwice, _⟩ := List.nodup_cons.mp distinct
    by_cases same : changed = package
    · subst same
      rw [nowFree]
      by_cases mine : other = thread
      · subst mine
        rw [Function.update_self]
        simp [notTwice]
      · rw [others mine, own.mp List.mem_cons_self]
        simp [Ne.symm mine]
    · rw [sameRunners package same]
      by_cases mine : other = thread
      · subst mine
        rw [Function.update_self, ← own, List.mem_cons]
        simp [Ne.symm same]
      · exact others mine

theorem GateSound.once_turn (sound : GateSound gate hands)
    (turn : Turn thread gate (hands thread) later errands) (other : ThreadId) :
    (runningInits (Function.update hands thread errands other)).Nodup := by
  by_cases same : other = thread
  · subst same
    rw [Function.update_self]
    have distinct := sound.once other
    rcases turn.cells with ⟨sameInits, _⟩ | ⟨changed, _, ⟨notTaken, _, more⟩ | ⟨_, fewer⟩⟩
    · rw [sameInits]
      exact distinct
    · rw [more]
      refine List.nodup_cons.mpr ⟨fun member => ?_, distinct⟩
      rw [sound.running, notTaken] at member
      cases member
    · rw [fewer] at distinct
      exact (List.nodup_cons.mp distinct).2
  · rw [Function.update_of_ne same]
    exact sound.once other

/-! ## Marks, waits and bodies -/

theorem marked_mem_update {other : ThreadId} {package : String} {context : ContextId}
    (member : .marked package context ∈ Function.update hands thread errands other) :
    (other = thread ∧ .marked package context ∈ errands) ∨
      (other ≠ thread ∧ .marked package context ∈ hands other) := by
  by_cases same : other = thread
  · subst same
    rw [Function.update_self] at member
    exact .inl ⟨rfl, member⟩
  · rw [Function.update_of_ne same] at member
    exact .inr ⟨same, member⟩

theorem GateSound.ne_of_marked (sound : GateSound gate hands) {head : Errand}
    {rest : List Errand} (taken : hands thread = head :: rest) {changed package : String}
    (runs : head.runs? = some changed) {other : ThreadId} {context : ContextId}
    (elsewhere : (other = thread ∧ .marked package context ∈ rest) ∨
      (other ≠ thread ∧ .marked package context ∈ hands other)) :
    changed ≠ package := by
  have distinct := sound.once thread
  have inits : runningInits (hands thread) = changed :: runningInits rest := by
    rw [taken]
    exact List.filterMap_cons_some runs
  rintro rfl
  rcases elsewhere with ⟨_, inRest⟩ | ⟨different, others⟩
  · rw [inits] at distinct
    exact (List.nodup_cons.mp distinct).1 (mem_runningInits_of_marked inRest)
  · refine different (sound.alone (mem_runningInits_of_marked others) ?_)
    rw [inits]
    exact List.mem_cons_self

theorem GateSound.marks_turn (sound : GateSound gate hands)
    (turn : Turn thread gate (hands thread) later errands) (other : ThreadId) (package : String)
    (context : ContextId)
    (member : .marked package context ∈ Function.update hands thread errands other) :
    later.marks.get? package = some ⟨context, other⟩ := by
  have change := turn.marks
  generalize taken : hands thread = before at change
  have markedBefore : ∀ {head : Errand} {rest : List Errand}, before = head :: rest →
      (other = thread ∧ .marked package context ∈ rest) ∨
        (other ≠ thread ∧ .marked package context ∈ hands other) →
      gate.marks.get? package = some ⟨context, other⟩ := by
    rintro head rest rfl (⟨rfl, inRest⟩ | ⟨_, others⟩)
    · refine sound.marks other package context ?_
      rw [taken]
      exact List.mem_cons_of_mem _ inRest
    · exact sound.marks other package context others
  cases change with
  | same sameMarks fewer =>
      rw [sameMarks]
      rcases marked_mem_update member with ⟨rfl, mine⟩ | ⟨_, others⟩
      · refine sound.marks other package context ?_
        rw [taken]
        exact fewer package context mine
      · exact sound.marks other package context others
  | @mark changed newContext rest =>
      unfold Gate.mark
      rw [Table.get?_insert]
      have elsewhere : (other = thread ∧ changed = package ∧ newContext = context) ∨
          (other = thread ∧ .marked package context ∈ rest) ∨
            (other ≠ thread ∧ .marked package context ∈ hands other) := by
        rcases marked_mem_update member with ⟨isThread, mine⟩ | others
        · rcases List.mem_cons.mp mine with isHead | inRest
          · cases isHead
            exact .inl ⟨isThread, rfl, rfl⟩
          · exact .inr (.inl ⟨isThread, inRest⟩)
        · exact .inr (.inr others)
      rcases elsewhere with ⟨rfl, rfl, rfl⟩ | elsewhere
      · rw [if_pos rfl]
      · rw [if_neg (sound.ne_of_marked taken rfl elsewhere)]
        exact markedBefore rfl elsewhere
  | @unmark changed oldContext rest =>
      unfold Gate.unmark
      rw [Table.get?_erase]
      have elsewhere : (other = thread ∧ .marked package context ∈ rest) ∨
          (other ≠ thread ∧ .marked package context ∈ hands other) := by
        rcases marked_mem_update member with ⟨isThread, mine⟩ | others
        · rcases List.mem_cons.mp mine with isHead | inRest
          · cases isHead
          · exact .inl ⟨isThread, inRest⟩
        · exact .inr others
      rw [if_neg (sound.ne_of_marked taken rfl elsewhere)]
      exact markedBefore rfl elsewhere

theorem GateSound.waits_turn (sound : GateSound gate hands)
    (turn : Turn thread gate (hands thread) later errands) (other : ThreadId) :
    later.waits.get? other = awaited? (Function.update hands thread errands other) := by
  obtain ⟨othersStay, inStep⟩ := turn.waits (sound.bodies thread)
  by_cases same : other = thread
  · subst same
    rw [Function.update_self]
    exact inStep (sound.waits other)
  · rw [Function.update_of_ne same, othersStay other fun equal => same equal.symm]
    exact sound.waits other

theorem afterPhase_cases (package : String) (rest : List Errand) (phase : GatePhase) :
    afterPhase package rest phase = rest ∨
      ∃ errand, afterPhase package rest phase = errand :: rest := by
  cases phase with
  | answered answer =>
      cases answer with
      | outcome outcome =>
          exact .inl rfl
      | claimed =>
          exact .inr ⟨_, rfl⟩
  | _ =>
      exact .inr ⟨_, rfl⟩

theorem Turn.bodies {before : List Errand} (turn : Turn thread gate before later errands)
    (bodies : OnlyBodies before.tail) : OnlyBodies errands.tail := by
  have fewer : ∀ {rest : List Errand}, OnlyBodies rest → OnlyBodies rest.tail :=
    fun all errand member => all errand (List.mem_of_mem_tail member)
  cases turn with
  | call package mayCall =>
      intro errand member
      cases before with
      | nil =>
          cases member
      | cons head rest =>
          cases head with
          | marked marked context =>
              rcases List.mem_cons.mp member with rfl | inRest
              · exact ⟨marked, context, rfl⟩
              · exact bodies errand inRest
          | _ =>
              cases mayCall
  | @advance package phase rest descends unanswered isReady =>
      rcases afterPhase_cases package rest (gate.advance thread package descends phase).1 with
        popped | ⟨errand, stays⟩
      · rw [popped]
        exact fewer bodies
      · rw [stays]
        exact bodies
  | mark context =>
      exact bodies
  | unmark =>
      exact bodies
  | settle outcome isOver =>
      exact bodies
  | leave =>
      exact fewer bodies
  | unwind runs noWait =>
      exact fewer bodies

theorem GateSound.bodies_turn (sound : GateSound gate hands)
    (turn : Turn thread gate (hands thread) later errands) (other : ThreadId) :
    OnlyBodies (Function.update hands thread errands other).tail := by
  by_cases same : other = thread
  · subst same
    rw [Function.update_self]
    exact turn.bodies (sound.bodies other)
  · rw [Function.update_of_ne same]
    exact sound.bodies other

/-! ## Rings -/

/-- After a turn a thread that waits has just announced its wait, or it has gone on along the waits
without changing anything that leads from thread to thread. -/
theorem Turn.onTrack {before : List Errand} (turn : Turn thread gate before later errands)
    (bodies : OnlyBodies before.tail) {awaited : String}
    (awaits : awaited? errands = some awaited) :
    (∃ package rest, errands = .passing package .countWaits :: rest) ∨
      (later.marks = gate.marks ∧ later.waits = gate.waits ∧
        ∃ package phase next rest, before = .passing package phase :: rest ∧
          errands = .passing package next :: rest ∧
          (gate.OnRing thread → gate.waits.get? thread = some package →
            gate.OnTrack thread phase → gate.OnTrack thread next)) := by
  cases turn with
  | call package mayCall =>
      cases awaits
  | @advance package phase rest descends unanswered isReady =>
      have noneBelow := OnlyBodies.awaited bodies
      have goesOn : phase ≠ .refuse → gate.OnRing thread →
          gate.waits.get? thread = some package → gate.OnTrack thread phase →
            gate.OnTrack thread (gate.advance thread package descends phase).1 :=
        fun notRefused onRing waits onTrack => onTrack.advance onRing waits notRefused descends
      cases phase with
      | announceWait =>
          exact .inl ⟨package, rest, rfl⟩
      | countWaits =>
          exact .inr ⟨rfl, rfl, package, _, _, rest, rfl, rfl, goesOn (by simp)⟩
      | findHolder held turns =>
          have continues := goesOn (by simp)
          refine .inr ?_
          cases turns with
          | zero =>
              exact ⟨rfl, rfl, package, _, _, rest, rfl, rfl, continues⟩
          | succ turns =>
              simp only [Gate.advance] at continues ⊢
              split
              · next missing =>
                simp only [missing] at continues
                exact ⟨rfl, rfl, package, _, _, rest, rfl, rfl, continues⟩
              · next mark found =>
                simp only [found] at continues
                split
                · next mine =>
                  exact ⟨rfl, rfl, package, _, _, rest, rfl, rfl, fun _ _ _ => trivial⟩
                · next notMine =>
                  simp only [notMine, if_false] at continues
                  exact ⟨rfl, rfl, package, _, _, rest, rfl, rfl, continues⟩
      | findWait holder turns =>
          have continues := goesOn (by simp)
          refine .inr ?_
          simp only [Gate.advance] at continues ⊢
          split
          · next missing =>
            simp only [missing] at continues
            exact ⟨rfl, rfl, package, _, _, rest, rfl, rfl, continues⟩
          · next next found =>
            simp only [found] at continues
            exact ⟨rfl, rfl, package, _, _, rest, rfl, rfl, continues⟩
      | enterCell =>
          refine .inr ?_
          simp only [Gate.advance] at awaits ⊢
          split
          · exact ⟨rfl, rfl, package, _, _, rest, rfl, rfl, fun _ _ never => never.elim⟩
          · exact ⟨rfl, rfl, package, _, _, rest, rfl, rfl, fun _ _ never => never.elim⟩
      | refuse =>
          exact absurd (noneBelow.symm.trans awaits) (by simp)
      | leave outcome =>
          exact absurd (noneBelow.symm.trans awaits) (by simp)
      | beginInit =>
          cases awaits
      | answered answer =>
          cases unanswered
      | lookForMark =>
          simp only [Gate.advance] at awaits
          split at awaits
          · cases awaits
          · cases awaits
      | judgeMark mark =>
          simp only [Gate.advance] at awaits
          split at awaits
          · exact absurd (noneBelow.symm.trans awaits) (by simp)
          · split at awaits
            · exact absurd (noneBelow.symm.trans awaits) (by simp)
            · cases awaits
      | openCell =>
          simp only [Gate.advance] at awaits
          split at awaits
          · cases awaits
          · cases awaits
      | lookForOutcome =>
          simp only [Gate.advance] at awaits
          split at awaits
          · exact absurd (noneBelow.symm.trans awaits) (by simp)
          · cases awaits
  | mark context =>
      cases awaits
  | unmark =>
      cases awaits
  | settle outcome isOver =>
      cases awaits
  | leave =>
      exact absurd ((OnlyBodies.awaited bodies).symm.trans awaits) (by simp)
  | unwind runs noWait =>
      exact absurd ((OnlyBodies.awaited bodies).symm.trans awaits) (by simp)

theorem Turn.sameWay {before : List Errand} (turn : Turn thread gate before later errands)
    (bodies : OnlyBodies before.tail) {member : ThreadId} (onRing : later.OnRing member)
    (elsewhere : ∀ steps, later.follow steps member ≠ some thread) :
    Gate.SameWay later gate member := by
  intro steps reached reaches
  have different : thread ≠ reached := by
    rintro rfl
    exact elsewhere steps reaches
  have sameWait : gate.waits.get? reached = later.waits.get? reached :=
    ((turn.waits bodies).1 reached different).symm
  refine ⟨?_, sameWait⟩
  obtain ⟨next, goes⟩ := (onRing.of_follow reaches).exists_next
  obtain ⟨package, waits, held⟩ := Gate.exists_wait_of_next goes
  have change := turn.marks
  rw [goes]
  refine Gate.next_of_wait (sameWait.trans waits) ?_
  rw [← held]
  unfold Gate.holder?
  cases change with
  | same sameMarks fewer =>
      rw [sameMarks]
  | @mark changed context rest =>
      have notSame : changed ≠ package := by
        rintro rfl
        unfold Gate.holder? Gate.mark at held
        rw [Table.get?_insert_self] at held
        cases held
        refine elsewhere (steps + 1) ?_
        rw [Gate.follow_succ, reaches]
        exact goes
      unfold Gate.mark
      rw [Table.get?_insert, if_neg notSame]
  | @unmark changed context rest =>
      have notSame : changed ≠ package := by
        rintro rfl
        unfold Gate.holder? Gate.unmark at held
        rw [Table.get?_erase_self] at held
        cases held
      unfold Gate.unmark
      rw [Table.get?_erase, if_neg notSame]

theorem GateSound.watched_turn (sound : GateSound gate hands)
    (turn : Turn thread gate (hands thread) later errands) :
    RingsWatched later (Function.update hands thread errands) := by
  intro member onRing
  have bodies := sound.bodies thread
  by_cases standsOn : ∃ steps, later.follow steps member = some thread
  · obtain ⟨steps, reaches⟩ := standsOn
    obtain ⟨next, goes⟩ := (onRing.of_follow reaches).exists_next
    obtain ⟨awaited, waits, _⟩ := Gate.exists_wait_of_next goes
    have awaits : awaited? errands = some awaited := by
      have inStep := sound.waits_turn turn thread
      rw [Function.update_self] at inStep
      exact inStep.symm.trans waits
    rcases turn.onTrack bodies awaits with ⟨package, rest, announced⟩ | ⟨sameMarks, sameWaits, own⟩
    · exact ⟨steps, thread, package, .countWaits, rest, reaches,
        (Function.update_self ..).trans announced, trivial⟩
    · have same : ∀ {from_ : ThreadId}, Gate.SameWay gate later from_ := by
        intro from_ steps reached _
        unfold Gate.next? Gate.holder?
        rw [sameMarks, sameWaits]
        exact ⟨rfl, rfl⟩
      have ringBefore := same.symm.onRing onRing
      obtain ⟨passed, watcher, package, phase, rest, passes, busy, onTrack⟩ :=
        sound.watched member ringBefore
      have passesLater : later.follow passed member = some watcher :=
        (same.follow passed).trans passes
      by_cases isThread : watcher = thread
      · subst isThread
        obtain ⟨ownPackage, ownPhase, ownNext, ownRest, wasPassing, isPassing, stays⟩ := own
        rw [wasPassing] at busy
        cases busy
        have waitsFor : gate.waits.get? watcher = some package := by
          have inStep := sound.waits watcher
          rw [wasPassing] at inStep
          rw [inStep]
          cases phase <;> first | rfl | exact onTrack.elim
        exact ⟨passed, watcher, package, ownNext, rest, passesLater,
          (Function.update_self ..).trans isPassing,
          (stays (ringBefore.of_follow passes) waitsFor onTrack).of_sameWay same⟩
      · exact ⟨passed, watcher, package, phase, rest, passesLater,
          (Function.update_of_ne isThread ..).trans busy, onTrack.of_sameWay same⟩
  · have elsewhere : ∀ steps, later.follow steps member ≠ some thread :=
      fun steps reaches => standsOn ⟨steps, reaches⟩
    have before := turn.sameWay bodies onRing elsewhere
    obtain ⟨passed, watcher, package, phase, rest, passes, busy, onTrack⟩ :=
      sound.watched member (before.onRing onRing)
    have passesLater : later.follow passed member = some watcher :=
      (before.symm.follow passed).trans passes
    have isNotThread : watcher ≠ thread := by
      rintro rfl
      exact elsewhere passed passesLater
    exact ⟨passed, watcher, package, phase, rest, passesLater,
      (Function.update_of_ne isNotThread ..).trans busy,
      onTrack.of_sameWay (before.symm.of_follow passes)⟩

end Preservation

/-- Whatever turns a number of threads take, the gate stays sound. -/
theorem Reachable.sound {gate : Gate} {hands : ThreadId → List Errand}
    (reachable : Reachable gate hands) : GateSound gate hands := by
  induction reachable with
  | start =>
      have noRing : ∀ thread, ¬ Gate.OnRing {} thread := by
        intro thread onRing
        obtain ⟨next, goes⟩ := onRing.exists_next
        cases goes
      exact
        { running := fun _ _ => .intro (fun member => by cases member) (fun runs => by cases runs)
          once := fun _ => List.nodup_nil
          marks := fun _ _ _ member => by cases member
          waits := fun _ => rfl
          bodies := fun _ _ member => by cases member
          watched := fun thread onRing => absurd onRing (noRing thread) }
  | turn _ turn inductionHypothesis =>
      exact
        { running := inductionHypothesis.running_turn turn
          once := inductionHypothesis.once_turn turn
          marks := inductionHypothesis.marks_turn turn
          waits := inductionHypothesis.waits_turn turn
          bodies := inductionHypothesis.bodies_turn turn
          watched := inductionHypothesis.watched_turn turn }

/-- A thread is blocked in front of the cell of a package whose init is running. -/
def Blocked (gate : Gate) (hands : ThreadId → List Errand) (thread : ThreadId)
    (package : String) : Prop :=
  (∃ rest, hands thread = .passing package .enterCell :: rest) ∧ gate.isRunning package = true

/-- A blocked thread waits for whoever runs the init, if that thread is blocked as well. -/
theorem GateSound.next_of_blocked {gate : Gate} {hands : ThreadId → List Errand}
    (sound : GateSound gate hands) {thread runner : ThreadId} {package elsewhere : String}
    (blocked : Blocked gate hands thread package) (runs : package ∈ runningInits (hands runner))
    (runnerBlocked : Blocked gate hands runner elsewhere) :
    gate.next? thread = some runner := by
  obtain ⟨⟨rest, passing⟩, _⟩ := blocked
  obtain ⟨⟨below, runnerPassing⟩, _⟩ := runnerBlocked
  have bodies := sound.bodies runner
  have marks := sound.marks runner
  rw [runnerPassing] at runs bodies marks
  obtain ⟨errand, member, isRun⟩ := List.mem_filterMap.mp runs
  rcases List.mem_cons.mp member with rfl | inRest
  · cases isRun
  · obtain ⟨marked, context, rfl⟩ := bodies errand inRest
    cases isRun
    have waits := sound.waits thread
    rw [passing] at waits
    refine Gate.next_of_wait waits ?_
    unfold Gate.holder?
    rw [marks package context (List.mem_cons_of_mem _ inRest)]
    rfl

/-- However the threads interleave, there is never a set of threads each of which is blocked by one
of the set. -/
theorem Reachable.not_deadlocked {gate : Gate} {hands : ThreadId → List Errand}
    (reachable : Reachable gate hands) {threads : Set ThreadId} (someThread : threads.Nonempty) :
    ¬ ∀ thread ∈ threads, ∃ package, Blocked gate hands thread package ∧
      ∃ runner ∈ threads, package ∈ runningInits (hands runner) := by
  intro deadlocked
  have sound := reachable.sound
  have leads : ∀ thread ∈ threads, ∃ runner ∈ threads, gate.next? thread = some runner := by
    intro thread member
    obtain ⟨package, blocked, runner, runnerMember, runs⟩ := deadlocked thread member
    obtain ⟨elsewhere, runnerBlocked, _⟩ := deadlocked runner runnerMember
    exact ⟨runner, runnerMember, sound.next_of_blocked blocked runs runnerBlocked⟩
  have stays : ∀ thread ∈ threads, ∀ steps, ∃ reached ∈ threads,
      gate.follow steps thread = some reached := by
    intro thread member steps
    induction steps with
    | zero =>
        exact ⟨thread, member, rfl⟩
    | succ steps inductionHypothesis =>
        obtain ⟨reached, reachedMember, reaches⟩ := inductionHypothesis
        obtain ⟨runner, runnerMember, goes⟩ := leads reached reachedMember
        refine ⟨runner, runnerMember, ?_⟩
        rw [Gate.follow_succ, reaches]
        exact goes
  obtain ⟨first, firstMember⟩ := someThread
  obtain ⟨steps, member, reaches, onRing⟩ := Gate.exists_onRing fun steps => by
    obtain ⟨reached, reachedMember, reaches⟩ := stays first firstMember steps
    obtain ⟨runner, _, goes⟩ := leads reached reachedMember
    exact ⟨reached, runner, reaches, goes⟩
  obtain ⟨passed, watcher, package, phase, rest, passes, busy, onTrack⟩ :=
    sound.watched member onRing
  obtain ⟨same, watcherMember, leadsThere⟩ := stays first firstMember (steps + passed)
  rw [Gate.follow_trans reaches passes] at leadsThere
  cases leadsThere
  obtain ⟨blockedPackage, ⟨⟨blockedRest, blocked⟩, _⟩, _⟩ := deadlocked watcher watcherMember
  rw [busy] at blocked
  cases blocked
  exact onTrack

end WorkerMachine
