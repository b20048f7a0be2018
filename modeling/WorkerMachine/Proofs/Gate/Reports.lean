import Mathlib.Data.List.Chain
import WorkerMachine.Proofs.Gate.Deadlock
import WorkerMachine.Proofs.Gate.Walking
/-!
# What a refusal tells

A call is refused when its walk along the waits has come back to its own thread.  The walk looks at one
map at a time, so what it has put together need not have been there at any one moment: between the look
at the mark of a package and the look at the wait of its holder, the holder may end the init and begin
to wait for something else.  As long as no thread that stands on the way leaves it, the way that has
been walked is there as a whole, and the refusal is right.
-/

namespace WorkerMachine

/-- The gate and the errands of all threads between two turns. -/
structure Moment where
  gate : Gate
  hands : ThreadId → List Errand

namespace Moment

/-- The moment after a thread has changed the gate and its own errands. -/
def turned (moment : Moment) (thread : ThreadId) (gate : Gate) (errands : List Errand) : Moment :=
  ⟨gate, Function.update moment.hands thread errands⟩

theorem turned_hands_self (moment : Moment) (thread : ThreadId) (gate : Gate)
    (errands : List Errand) : (moment.turned thread gate errands).hands thread = errands :=
  Function.update_self ..

theorem turned_hands_of_ne (moment : Moment) {mover thread : ThreadId} (different : mover ≠ thread)
    (gate : Gate) (errands : List Errand) :
    (moment.turned mover gate errands).hands thread = moment.hands thread :=
  Function.update_of_ne different.symm ..

def phase? (moment : Moment) (thread : ThreadId) : Option GatePhase :=
  match moment.hands thread with
  | .passing _ phase :: _ => some phase
  | _ => none

def passes (thread : ThreadId) (moment : Moment) : Bool :=
  (moment.phase? thread).isSome

/-- Whether a thread walks along the waits, or has just come back to itself. -/
def walks (thread : ThreadId) (moment : Moment) : Bool :=
  match moment.phase? thread with
  | some .refuse => true
  | some phase => phase.isWalking
  | none => false

end Moment

/-- Moments that come about by turns of any threads, the latest one first. -/
inductive History : List Moment → Prop
  | start : History [⟨{}, fun _ => []⟩]
  | turn {moment : Moment} {earlier : List Moment} {thread : ThreadId} {later : Gate}
      {errands : List Errand} :
      History (moment :: earlier) →
      Turn thread moment.gate (moment.hands thread) later errands →
      History (moment.turned thread later errands :: moment :: earlier)

namespace Gate

variable {gate later : Gate} {thread : ThreadId} {package : String} {phase : GatePhase}

/-- The threads on the way from a package stay where they are, and those that wait go on waiting. -/
def KeepsWay (package : String) (gate later : Gate) : Prop :=
  ∀ hops holder, gate.holderAfter? package hops = some holder →
    later.holderAfter? package hops = some holder ∧
      ∀ awaited, gate.waits.get? holder = some awaited → later.waits.get? holder = some awaited

/-- What a walk from a package has found so far lies on the way from the package. -/
def OnWay (gate : Gate) (thread : ThreadId) (package : String) : GatePhase → Prop
  | .findHolder held _ => held = package ∨ ∃ hops holder,
      gate.holderAfter? package hops = some holder ∧ gate.waits.get? holder = some held
  | .findWait holder _ => ∃ hops, gate.holderAfter? package hops = some holder
  | .refuse => ∃ hops, gate.holderAfter? package hops = some thread
  | _ => True

theorem OnWay.of_keepsWay (onWay : gate.OnWay thread package phase)
    (kept : gate.KeepsWay package later) : later.OnWay thread package phase := by
  cases phase with
  | findHolder held turns =>
      rcases onWay with atStart | ⟨hops, holder, stands, waits⟩
      · exact .inl atStart
      · obtain ⟨stillStands, stillWaits⟩ := kept hops holder stands
        exact .inr ⟨hops, holder, stillStands, stillWaits held waits⟩
  | findWait holder turns =>
      obtain ⟨hops, stands⟩ := onWay
      exact ⟨hops, (kept hops holder stands).1⟩
  | refuse =>
      obtain ⟨hops, stands⟩ := onWay
      exact ⟨hops, (kept hops thread stands).1⟩
  | _ =>
      trivial

/-- The holder of a package to which a walk has come lies on the way, too. -/
theorem exists_holderAfter {held : String} {turns : Nat} {holder : ThreadId}
    (onWay : gate.OnWay thread package (.findHolder held turns))
    (holds : gate.holder? held = some holder) :
    ∃ hops, gate.holderAfter? package hops = some holder := by
  rcases onWay with rfl | ⟨hops, waiting, stands, waits⟩
  · exact ⟨0, (gate.holderAfter?_zero held).trans holds⟩
  · refine ⟨hops + 1, ?_⟩
    rw [holderAfter?_add, stands]
    exact (gate.follow_one waiting).trans (next_of_wait waits holds)

/-- Each operation keeps the walk of its own thread on the way. -/
theorem OnWay.advance (onWay : gate.OnWay thread package phase) (descends : ContextId → Bool) :
    (gate.advance thread package descends phase).2.OnWay thread package
      (gate.advance thread package descends phase).1 := by
  cases phase with
  | countWaits =>
      exact .inl rfl
  | findHolder held turns =>
      cases turns with
      | zero =>
          trivial
      | succ turns =>
          simp only [Gate.advance]
          split
          · trivial
          · next mark marked =>
            have holds : gate.holder? held = some mark.thread := by
              rw [holder?, marked]
              rfl
            obtain ⟨hops, stands⟩ := exists_holderAfter onWay holds
            split
            · next own => exact ⟨hops, own ▸ stands⟩
            · exact ⟨hops, stands⟩
  | findWait holder turns =>
      obtain ⟨hops, stands⟩ := onWay
      simp only [Gate.advance]
      split
      · trivial
      · next awaited waits => exact .inr ⟨hops, holder, stands, waits⟩
  | refuse | announceWait | beginInit | leave _ =>
      trivial
  | lookForMark | openCell | lookForOutcome | enterCell =>
      simp only [Gate.advance]
      split <;> trivial
  | judgeMark mark =>
      simp only [Gate.advance]
      split
      · trivial
      · split <;> trivial
  | answered answer =>
      trivial

/-- A call judges the mark that it has just found. -/
theorem marked_of_judgeMark {descends : ContextId → Bool} {mark : InitMark}
    (goes : gate.advance thread package descends phase = (.judgeMark mark, later)) :
    gate.marks.get? package = some mark := by
  cases phase with
  | lookForMark =>
      simp only [Gate.advance] at goes
      split at goes
      · next found marked =>
        cases goes
        exact marked
      · cases goes
  | judgeMark _ =>
      simp only [Gate.advance] at goes
      split at goes
      · cases goes
      · split at goes <;> cases goes
  | findHolder _ turns =>
      cases turns with
      | zero =>
          cases goes
      | succ turns =>
          simp only [Gate.advance] at goes
          split at goes
          · cases goes
          · split at goes <;> cases goes
  | openCell | lookForOutcome | findWait _ _ | enterCell =>
      simp only [Gate.advance] at goes
      split at goes <;> cases goes
  | announceWait | countWaits | refuse | beginInit | leave _ | answered _ =>
      cases goes

end Gate

section Histories

variable {moment : Moment} {earlier : List Moment} {thread : ThreadId} {package : String}
  {phase : GatePhase} {rest : List Errand}

theorem History.reachable (history : History (moment :: earlier)) :
    Reachable moment.gate moment.hands := by
  generalize isHead : moment :: earlier = moments at history
  induction history generalizing moment earlier with
  | start =>
      cases isHead
      exact .start
  | turn _ turn inductionHypothesis =>
      cases isHead
      exact .turn (inductionHypothesis rfl) turn

/-- A phase that puts a call in front of the gate is not answered yet. -/
theorem eq_of_afterPhase {asked : String} {below : List Errand} {next : GatePhase}
    (bodies : OnlyBodies below)
    (passing : afterPhase asked below next = .passing package phase :: rest) :
    asked = package ∧ next = phase ∧ below = rest := by
  cases next with
  | answered answer =>
      cases answer with
      | outcome outcome =>
          obtain rfl : below = .passing package phase :: rest := passing
          obtain ⟨_, _, isBody⟩ := bodies _ List.mem_cons_self
          cases isBody
      | claimed =>
          cases passing
  | _ =>
      cases passing
      exact ⟨rfl, rfl, rfl⟩

/-- A thread that passes a gate after a turn of its own has just come there or has gone through a
phase. -/
theorem Turn.passing_cases {gate later : Gate} {before after : List Errand}
    (turn : Turn thread gate before later after) (bodies : OnlyBodies before.tail)
    (passing : after = .passing package phase :: rest) :
    phase = .lookForMark ∨ ∃ previous descends, before = .passing package previous :: rest ∧
      gate.advance thread package descends previous = (phase, later) := by
  have noBody : ¬ OnlyBodies after := by
    intro onlyBodies
    obtain ⟨_, _, isBody⟩ := onlyBodies (.passing package phase) (passing ▸ List.mem_cons_self)
    cases isBody
  cases turn with
  | call asked mayCall =>
      cases passing
      exact .inl rfl
  | @advance asked previous below descends unanswered isReady =>
      obtain ⟨rfl, rfl, rfl⟩ := eq_of_afterPhase bodies passing
      exact .inr ⟨previous, descends, rfl, rfl⟩
  | mark context | unmark | settle outcome isOver =>
      cases passing
  | leave | unwind runs noWait =>
      exact absurd bodies noBody

theorem Moment.phase?_of_passing (passing : moment.hands thread = .passing package phase :: rest) :
    moment.phase? thread = some phase := by
  rw [phase?, passing]

theorem Moment.onWay_of_not_walks (passing : moment.hands thread = .passing package phase :: rest)
    (stands : moment.walks thread = false) : moment.gate.OnWay thread package phase := by
  rw [walks, phase?_of_passing passing] at stands
  cases phase with
  | findHolder _ _ | findWait _ _ | refuse =>
      cases stands
  | _ =>
      trivial

/-- Between two moments of a walk the way from the package is kept. -/
def KeepsWays (package : String) (moments : List Moment) : Prop :=
  moments.IsChain fun later moment => moment.gate.KeepsWay package later.gate

/-- As long as the way is kept, what a walk has found lies on it. -/
theorem History.onWay (history : History (moment :: earlier))
    (passing : moment.hands thread = .passing package phase :: rest)
    (kept : KeepsWays package ((moment :: earlier).takeWhile (Moment.walks thread))) :
    moment.gate.OnWay thread package phase := by
  generalize isHead : moment :: earlier = moments at history kept
  induction history generalizing moment earlier phase with
  | start =>
      cases isHead
      cases passing
  | @turn previous before mover later errands history turn inductionHypothesis =>
      cases isHead
      by_cases walks : (previous.turned mover later errands).walks thread = true
      · rw [List.takeWhile_cons_of_pos walks] at kept
        have bodies := history.reachable.sound.bodies mover
        by_cases own : mover = thread
        · subst own
          rw [Moment.turned_hands_self] at passing
          rcases turn.passing_cases bodies passing with rfl | ⟨last, descends, stood, goes⟩
          · trivial
          · have onWay := inductionHypothesis stood rfl kept.tail
            have goesOn := onWay.advance descends
            rw [goes] at goesOn
            exact goesOn
        · have stood : previous.hands thread = .passing package phase :: rest := by
            rw [← passing, Moment.turned_hands_of_ne _ own]
          have walked : previous.walks thread = true := by
            rw [← walks, Moment.walks, Moment.walks, Moment.phase?_of_passing stood,
              Moment.phase?_of_passing passing]
          have onWay := inductionHypothesis stood rfl kept.tail
          rw [List.takeWhile_cons_of_pos walked] at kept
          exact onWay.of_keepsWay kept.rel
      · exact Moment.onWay_of_not_walks passing (Bool.eq_false_iff.mpr walks)

/-- The mark that a call judges was there during the call. -/
theorem History.marked_of_judges {mark : InitMark} (history : History (moment :: earlier))
    (passing : moment.hands thread = .passing package (.judgeMark mark) :: rest) :
    ∃ seen ∈ (moment :: earlier).takeWhile (Moment.passes thread),
      seen.gate.marks.get? package = some mark := by
  generalize isHead : moment :: earlier = moments at history
  induction history generalizing moment earlier with
  | start =>
      cases isHead
      cases passing
  | @turn previous before mover later errands history turn inductionHypothesis =>
      cases isHead
      have passes : (previous.turned mover later errands).passes thread = true := by
        rw [Moment.passes, Moment.phase?_of_passing passing]
        rfl
      rw [List.takeWhile_cons_of_pos passes]
      by_cases own : mover = thread
      · subst own
        rw [Moment.turned_hands_self] at passing
        rcases turn.passing_cases (history.reachable.sound.bodies mover) passing with
          isFirst | ⟨last, descends, stood, goes⟩
        · cases isFirst
        · have stands : previous.passes mover = true := by
            rw [Moment.passes, Moment.phase?_of_passing stood]
            rfl
          rw [List.takeWhile_cons_of_pos stands]
          exact ⟨previous, List.mem_cons_of_mem _ List.mem_cons_self,
            Gate.marked_of_judgeMark goes⟩
      · have stood : previous.hands thread = .passing package (.judgeMark mark) :: rest := by
          rw [← passing, Moment.turned_hands_of_ne _ own]
        obtain ⟨seen, member, marked⟩ := inductionHypothesis stood rfl
        exact ⟨seen, List.mem_cons_of_mem _ member, marked⟩

def GatePhase.Refuses (thread : ThreadId) : GatePhase → Prop
  | .refuse => True
  | .judgeMark mark => mark.thread = thread
  | _ => False

/-- A refusal is right unless a thread on the way leaves it while the call walks: at some moment of the
call the way from the package has led to the call's own thread. -/
theorem History.ring_of_refusal (history : History (moment :: earlier))
    (passing : moment.hands thread = .passing package phase :: rest) (refuses : phase.Refuses thread)
    (kept : KeepsWays package ((moment :: earlier).takeWhile (Moment.walks thread))) :
    ∃ seen ∈ (moment :: earlier).takeWhile (Moment.passes thread),
      ∃ hops, seen.gate.holderAfter? package hops = some thread := by
  cases phase with
  | refuse =>
      have passes : moment.passes thread = true := by
        rw [Moment.passes, Moment.phase?_of_passing passing]
        rfl
      rw [List.takeWhile_cons_of_pos passes]
      exact ⟨moment, List.mem_cons_self, history.onWay passing kept⟩
  | judgeMark mark =>
      obtain ⟨seen, member, marked⟩ := history.marked_of_judges passing
      refine ⟨seen, member, 0, ?_⟩
      rw [Gate.holderAfter?_zero, Gate.holder?, marked]
      exact congrArg some refuses
  | _ =>
      cases refuses

end Histories

/-! ## A refusal without a ring -/

/-- What a thread sets out to do. -/
inductive Intent where
  | call (package : String)
  | goOn
  | mark (context : ContextId)
  | unmark
  | settle (outcome : Except Fault Unit)
  | leave

namespace Intent

/-- What a thread that descends from no init comes to by carrying out its intent, if it can. -/
def carryOut (thread : ThreadId) (gate : Gate) : Intent → List Errand → Option (Gate × List Errand)
  | call package, [] => some (gate, [.passing package .lookForMark])
  | call package, .marked held context :: rest =>
    some (gate, .passing package .lookForMark :: .marked held context :: rest)
  | goOn, .passing package phase :: rest =>
    if phase.answer?.isNone && gate.ready package phase then
      let gone := gate.advance thread package (fun _ => false) phase
      some (gone.2, afterPhase package rest gone.1)
    else none
  | mark context, .claimed package :: rest =>
    some (gate.mark package ⟨context, thread⟩, .marked package context :: rest)
  | unmark, .marked package _ :: rest => some (gate.unmark package, .unmarked package :: rest)
  | settle outcome, .unmarked package :: rest =>
    some (gate.setCell package (.settled outcome), .settled package :: rest)
  | leave, .settled _ :: rest => some (gate.withdraw thread, rest)
  | _, _ => none

theorem turn_of_carryOut {intent : Intent} {thread : ThreadId} {gate later : Gate}
    {before after : List Errand} (carried : intent.carryOut thread gate before = some (later, after)) :
    Turn thread gate before later after := by
  unfold carryOut at carried
  split at carried
  · cases carried
    exact .call _ trivial
  · cases carried
    exact .call _ trivial
  · split at carried
    · next mayGoOn =>
      simp only [Bool.and_eq_true, Option.isNone_iff_eq_none] at mayGoOn
      cases carried
      exact .advance _ mayGoOn.1 mayGoOn.2
    · cases carried
  · cases carried
    exact .mark _
  · cases carried
    exact .unmark
  · cases carried
    exact .settle _ (.inr rfl)
  · cases carried
    exact .leave
  · cases carried

end Intent

/-- The last moment and the earlier ones that come about when threads carry out their intents in turn,
where they can. -/
def momentsOf : List (ThreadId × Intent) → Moment → List Moment → Moment × List Moment
  | [], moment, earlier => (moment, earlier)
  | (thread, intent) :: intents, moment, earlier =>
    match intent.carryOut thread moment.gate (moment.hands thread) with
    | some (gate, errands) =>
      momentsOf intents (moment.turned thread gate errands) (moment :: earlier)
    | none => momentsOf intents moment earlier

theorem History.momentsOf {moment : Moment} {earlier : List Moment}
    (history : History (moment :: earlier)) (intents : List (ThreadId × Intent)) :
    History ((momentsOf intents moment earlier).1 :: (momentsOf intents moment earlier).2) := by
  induction intents generalizing moment earlier with
  | nil =>
      exact history
  | cons first intents inductionHypothesis =>
      rw [WorkerMachine.momentsOf]
      split
      · next carried => exact inductionHypothesis (.turn history (Intent.turn_of_carryOut carried))
      · exact inductionHypothesis history

/-- One thread runs the init of `outer` and another one that of `inner`.  The first one calls `inner`
and looks at its mark.  Before it looks for what the other one waits for, the other one ends the init
and calls `outer`. -/
def lateLook : List (ThreadId × Intent) :=
  let goOn (times : Nat) (thread : ThreadId) := List.replicate times (thread, Intent.goOn)
  [(0, .call "outer")] ++ goOn 8 0 ++ [(0, .mark 5)] ++
    [(1, .call "inner")] ++ goOn 8 1 ++ [(1, .mark 6)] ++
    [(0, .call "inner")] ++ goOn 7 0 ++
    [(1, .unmark), (1, .settle (.ok ())), (1, .leave), (1, .call "outer")] ++ goOn 5 1 ++ goOn 2 0

/-- A call may be refused though at no moment of it the way from the package has led to its thread. -/
theorem History.refusal_without_ring :
    ∃ moment earlier, History (moment :: earlier) ∧
      (∃ rest, moment.hands 0 = .passing "inner" .refuse :: rest) ∧
      ∀ seen ∈ (moment :: earlier).takeWhile (Moment.passes 0),
        ∀ hops, seen.gate.holderAfter? "inner" hops ≠ some 0 := by
  have never : ∀ seen ∈ ((WorkerMachine.momentsOf lateLook ⟨{}, fun _ => []⟩ []).1 ::
      (WorkerMachine.momentsOf lateLook ⟨{}, fun _ => []⟩ []).2).takeWhile (Moment.passes 0),
      seen.gate.comesBack 0 (seen.gate.waits.size + 1) "inner" = false := by
    decide
  refine ⟨_, _, .momentsOf .start lateLook, ⟨_, rfl⟩, fun seen member hops reaches => ?_⟩
  have comesBack := (Gate.comesBack_iff_of_lt (Nat.lt_succ_self _)).mpr ⟨hops, reaches⟩
  rw [never seen member] at comesBack
  cases comesBack

end WorkerMachine
