import Mathlib.Logic.Function.Basic
import WorkerMachine.Proofs.Gate.Rings
/-!
# Threads at the gate

Any number of threads cross the gate, each at its own pace.  A thread passes the gate of a package
phase by phase; if it takes over the cell, it marks the package, carries out the body of the init,
removes the mark and settles the cell.  The body may cross the gate of further packages, on the same
thread, so that the errands of a thread form a stack.  Every step is one operation on the maps, and
the steps of different threads come in any order.
-/

namespace WorkerMachine

/-- What a thread is about in crossing the gate of one package. -/
inductive Errand where
  /-- It is in a phase of passing the gate. -/
  | passing (package : String) (phase : GatePhase)
  /-- It has taken over the cell, and nobody sees the init yet. -/
  | claimed (package : String)
  /-- The package is marked with the context of the init, whose body is carried out. -/
  | marked (package : String) (context : ContextId)
  /-- The body is done and the mark is removed, if there was one. -/
  | unmarked (package : String)
  /-- The cell is settled. -/
  | settled (package : String)

namespace Errand

/-- The package whose init a thread runs: the cell has been taken over and not been settled. -/
def runs? : Errand → Option String
  | passing package .beginInit | claimed package | marked package _ | unmarked package =>
    some package
  | passing _ _ | settled _ => none

def awaits? : Errand → Option String
  | passing package .countWaits | passing package (.findHolder _ _)
  | passing package (.findWait _ _) | passing package .refuse | passing package .enterCell
  | passing package .beginInit | passing package (.leave _) => some package
  | _ => none

end Errand

/-- The packages whose inits a thread runs. -/
def runningInits (errands : List Errand) : List String :=
  errands.filterMap Errand.runs?

/-- The package that a thread with these errands is registered as waiting for. -/
def awaited? : List Errand → Option String
  | [] => none
  | errand :: _ => errand.awaits?

/-- Whether a thread with these errands may begin to cross the gate of another package: outside of
all inits, or in the body of an init. -/
def MayCall : List Errand → Prop
  | [] => True
  | .marked _ _ :: _ => True
  | _ => False

/-- The errands that follow a phase: an outcome ends the errand, and a taken over cell opens the
init. -/
def afterPhase (package : String) (rest : List Errand) : GatePhase → List Errand
  | .answered (.outcome _) => rest
  | .answered .claimed => .claimed package :: rest
  | phase => .passing package phase :: rest

/-- One step of a thread, from a gate and the errands of the thread to a gate and errands. -/
inductive Turn (thread : ThreadId) : Gate → List Errand → Gate → List Errand → Prop
  /-- A call comes to the gate of a package. -/
  | call {gate : Gate} {errands : List Errand} (package : String) :
      MayCall errands → Turn thread gate errands gate (.passing package .lookForMark :: errands)
  /-- The operation of one phase. -/
  | advance {gate : Gate} {package : String} {phase : GatePhase} {rest : List Errand}
      (descends : ContextId → Bool) :
      phase.answer? = none → gate.ready package phase = true →
      Turn thread gate (.passing package phase :: rest)
        (gate.advance thread package descends phase).2
        (afterPhase package rest (gate.advance thread package descends phase).1)
  /-- The init unit is about to be called. -/
  | mark {gate : Gate} {package : String} {rest : List Errand} (context : ContextId) :
      Turn thread gate (.claimed package :: rest) (gate.mark package ⟨context, thread⟩)
        (.marked package context :: rest)
  /-- The init unit has been called. -/
  | unmark {gate : Gate} {package : String} {context : ContextId} {rest : List Errand} :
      Turn thread gate (.marked package context :: rest) (gate.unmark package)
        (.unmarked package :: rest)
  /-- The outcome of the init goes into the cell.  Without an init unit there never was a mark. -/
  | settle {gate : Gate} {errand : Errand} {package : String} {rest : List Errand}
      (outcome : Except Fault Unit) :
      errand = .claimed package ∨ errand = .unmarked package →
      Turn thread gate (errand :: rest) (gate.setCell package (.settled outcome))
        (.settled package :: rest)
  /-- The call goes on behind the gate. -/
  | leave {gate : Gate} {package : String} {rest : List Errand} :
      Turn thread gate (.settled package :: rest) (gate.withdraw thread) rest
  /-- A panic unwinds an init; a mark stays behind. -/
  | unwind {gate : Gate} {errand : Errand} {package : String} {rest : List Errand} :
      errand.runs? = some package → awaited? (errand :: rest) = none →
      Turn thread gate (errand :: rest) (gate.setCell package .untouched) rest

/-- The gates and the errands of all threads that any interleaving of turns comes to. -/
inductive Reachable : Gate → (ThreadId → List Errand) → Prop
  | start : Reachable {} fun _ => []
  | turn {gate later : Gate} {hands : ThreadId → List Errand} {thread : ThreadId}
      {errands : List Errand} :
      Reachable gate hands → Turn thread gate (hands thread) later errands →
      Reachable later (Function.update hands thread errands)

/-! ## What one turn does to each of the maps -/

namespace Gate

def runner? (gate : Gate) (package : String) : Option ThreadId :=
  match gate.cells.get? package with
  | some (.running thread) => some thread
  | _ => none

theorem isRunning_eq (gate : Gate) (package : String) :
    gate.isRunning package = (gate.runner? package).isSome := by
  unfold isRunning runner?
  cases gate.cells.get? package with
  | none =>
      rfl
  | some cell =>
      cases cell with
      | untouched | running _ | settled _ =>
          rfl

theorem runner?_setCell_of_ne (gate : Gate) {package asked : String} (different : package ≠ asked)
    (cell : InitCell) : (gate.setCell package cell).runner? asked = gate.runner? asked := by
  unfold runner? setCell
  rw [Table.get?_insert, if_neg different]

theorem runner?_setCell_running (gate : Gate) (package : String) (thread : ThreadId) :
    (gate.setCell package (.running thread)).runner? package = some thread := by
  unfold runner? setCell
  rw [Table.get?_insert_self]

theorem runner?_setCell_untouched (gate : Gate) (package : String) :
    (gate.setCell package .untouched).runner? package = none := by
  unfold runner? setCell
  rw [Table.get?_insert_self]

theorem runner?_setCell_settled (gate : Gate) (package : String) (outcome : Except Fault Unit) :
    (gate.setCell package (.settled outcome)).runner? package = none := by
  unfold runner? setCell
  rw [Table.get?_insert_self]

theorem runner?_of_missing {gate : Gate} {package : String}
    (missing : ¬ gate.cells.contains package = true) : gate.runner? package = none := by
  unfold Table.contains at missing
  unfold runner?
  split
  · next found =>
    rw [found] at missing
    exact absurd rfl missing
  · rfl

end Gate

theorem mem_runningInits_of_marked {package : String} {context : ContextId}
    {errands : List Errand} (member : Errand.marked package context ∈ errands) :
    package ∈ runningInits errands :=
  List.mem_filterMap.mpr ⟨_, member, rfl⟩

/-- What one turn may do to the inits that a thread runs: it leaves them as they are, or takes over
one whose cell nobody has taken over, or ends one. -/
def CellsChange (thread : ThreadId) (gate later : Gate) (before errands : List Errand) : Prop :=
  (runningInits errands = runningInits before ∧
      ∀ asked, later.runner? asked = gate.runner? asked) ∨
    ∃ package, (∀ asked, package ≠ asked → later.runner? asked = gate.runner? asked) ∧
      ((gate.runner? package = none ∧ later.runner? package = some thread ∧
          runningInits errands = package :: runningInits before) ∨
        (later.runner? package = none ∧ runningInits before = package :: runningInits errands))

theorem CellsChange.none {thread : ThreadId} {gate later : Gate} {before errands : List Errand}
    (sameInits : runningInits errands = runningInits before)
    (sameCells : later.cells = gate.cells) :
    CellsChange thread gate later before errands := by
  refine .inl ⟨sameInits, fun asked => ?_⟩
  unfold Gate.runner?
  rw [sameCells]

theorem advance_cells {thread : ThreadId} (gate : Gate) {package : String} {phase : GatePhase}
    (descends : ContextId → Bool) (rest : List Errand) (unanswered : phase.answer? = none)
    (isReady : gate.ready package phase = true) :
    CellsChange thread gate (gate.advance thread package descends phase).2
      (.passing package phase :: rest)
      (afterPhase package rest (gate.advance thread package descends phase).1) := by
  cases phase with
  | openCell =>
      simp only [Gate.advance]
      split
      · exact .none rfl rfl
      · next missing =>
        refine .inl ⟨rfl, fun asked => ?_⟩
        by_cases same : package = asked
        · subst same
          rw [gate.runner?_setCell_untouched, Gate.runner?_of_missing missing]
        · exact gate.runner?_setCell_of_ne same _
  | enterCell =>
      simp only [Gate.advance]
      split
      · exact .none rfl rfl
      · refine .inr ⟨package, fun asked different => gate.runner?_setCell_of_ne different _,
          .inl ⟨?_, gate.runner?_setCell_running package thread, rfl⟩⟩
        simpa [Gate.ready, Gate.isRunning_eq] using isReady
  | answered answer =>
      cases unanswered
  | findHolder held turns =>
      cases turns with
      | zero =>
          exact .none rfl rfl
      | succ turns =>
          simp only [Gate.advance]
          split
          · exact .none rfl rfl
          · split
            · exact .none rfl rfl
            · exact .none rfl rfl
  | judgeMark mark =>
      simp only [Gate.advance]
      split
      · exact .none rfl rfl
      · split
        · exact .none rfl rfl
        · exact .none rfl rfl
  | lookForMark | lookForOutcome | findWait _ _ =>
      simp only [Gate.advance]
      split
      · exact .none rfl rfl
      · exact .none rfl rfl
  | announceWait | countWaits | refuse | beginInit | leave _ =>
      exact .none rfl rfl

theorem Turn.cells {thread : ThreadId} {gate later : Gate} {before errands : List Errand}
    (turn : Turn thread gate before later errands) :
    CellsChange thread gate later before errands := by
  cases turn with
  | call package mayCall =>
      exact .none rfl rfl
  | @advance package phase rest descends unanswered isReady =>
      exact advance_cells gate descends rest unanswered isReady
  | @mark package rest context =>
      exact .none rfl rfl
  | @unmark package context rest =>
      exact .none rfl rfl
  | @settle errand package rest outcome isOver =>
      refine .inr ⟨package, fun asked different => gate.runner?_setCell_of_ne different _,
        .inr ⟨gate.runner?_setCell_settled package outcome, ?_⟩⟩
      rcases isOver with rfl | rfl
      · rfl
      · rfl
  | @leave package rest =>
      exact .none rfl rfl
  | @unwind errand package rest runs _ =>
      exact .inr ⟨package, fun asked different => gate.runner?_setCell_of_ne different _,
        .inr ⟨gate.runner?_setCell_untouched package, List.filterMap_cons_some runs⟩⟩

/-- What one turn may do to the waits: it keeps the wait of the thread in step with its errands, and
leaves every other wait alone. -/
def WaitsChange (thread : ThreadId) (gate later : Gate) (before errands : List Errand) : Prop :=
  (∀ other, thread ≠ other → later.waits.get? other = gate.waits.get? other) ∧
    (gate.waits.get? thread = awaited? before → later.waits.get? thread = awaited? errands)

theorem WaitsChange.of_eq {thread : ThreadId} {gate later : Gate} {before errands : List Errand}
    (sameWaits : later.waits = gate.waits) (sameAwaited : awaited? errands = awaited? before) :
    WaitsChange thread gate later before errands := by
  refine ⟨fun _ _ => by rw [sameWaits], fun inStep => ?_⟩
  rw [sameWaits, sameAwaited]
  exact inStep

theorem WaitsChange.of_withdraw {thread : ThreadId} {gate : Gate} {before errands : List Errand}
    (noneAwaited : awaited? errands = none) :
    WaitsChange thread gate (gate.withdraw thread) before errands := by
  refine ⟨fun other different => ?_, fun _ => ?_⟩
  · unfold Gate.withdraw
    rw [Table.get?_erase, if_neg different]
  · unfold Gate.withdraw
    rw [Table.get?_erase_self, noneAwaited]

/-- Below an errand there is nothing but bodies of inits. -/
def OnlyBodies (errands : List Errand) : Prop :=
  ∀ errand ∈ errands, ∃ package context, errand = .marked package context

theorem OnlyBodies.awaited {errands : List Errand} (bodies : OnlyBodies errands) :
    awaited? errands = none := by
  cases errands with
  | nil =>
      rfl
  | cons errand rest =>
      obtain ⟨package, context, rfl⟩ := bodies errand List.mem_cons_self
      rfl

theorem advance_waits {thread : ThreadId} (gate : Gate) {package : String} {phase : GatePhase}
    (descends : ContextId → Bool) {rest : List Errand} (unanswered : phase.answer? = none)
    (bodies : OnlyBodies rest) :
    WaitsChange thread gate (gate.advance thread package descends phase).2
      (.passing package phase :: rest)
      (afterPhase package rest (gate.advance thread package descends phase).1) := by
  have noneBelow := bodies.awaited
  cases phase with
  | lookForMark =>
      simp only [Gate.advance]
      split
      · exact .of_eq rfl rfl
      · exact .of_eq rfl rfl
  | judgeMark mark =>
      simp only [Gate.advance]
      split
      · exact .of_eq rfl noneBelow
      · split
        · exact .of_eq rfl noneBelow
        · exact .of_eq rfl rfl
  | openCell =>
      simp only [Gate.advance]
      split
      · exact .of_eq rfl rfl
      · exact .of_eq rfl rfl
  | lookForOutcome =>
      simp only [Gate.advance]
      split
      · exact .of_eq rfl noneBelow
      · exact .of_eq rfl rfl
  | announceWait =>
      refine ⟨fun other different => ?_, fun _ => ?_⟩
      · simp only [Gate.advance]
        rw [Table.get?_insert, if_neg different]
      · simp only [Gate.advance]
        rw [Table.get?_insert_self]
        rfl
  | countWaits =>
      exact .of_eq rfl rfl
  | findHolder held turns =>
      cases turns with
      | zero =>
          exact .of_eq rfl rfl
      | succ turns =>
          simp only [Gate.advance]
          split
          · exact .of_eq rfl rfl
          · split
            · exact .of_eq rfl rfl
            · exact .of_eq rfl rfl
  | findWait holder turns =>
      simp only [Gate.advance]
      split
      · exact .of_eq rfl rfl
      · exact .of_eq rfl rfl
  | refuse =>
      exact .of_withdraw noneBelow
  | enterCell =>
      simp only [Gate.advance]
      split
      · exact .of_eq rfl rfl
      · exact .of_eq rfl rfl
  | beginInit =>
      exact .of_withdraw rfl
  | leave outcome =>
      exact .of_withdraw noneBelow
  | answered answer =>
      cases unanswered

theorem Turn.waits {thread : ThreadId} {gate later : Gate} {before errands : List Errand}
    (turn : Turn thread gate before later errands) (bodies : OnlyBodies before.tail) :
    WaitsChange thread gate later before errands := by
  cases turn with
  | call package mayCall =>
      refine .of_eq rfl ?_
      cases before with
      | nil =>
          rfl
      | cons errand rest =>
          cases errand with
          | marked package context =>
              rfl
          | _ =>
              cases mayCall
  | @advance package phase rest descends unanswered isReady =>
      exact advance_waits gate descends unanswered bodies
  | mark context =>
      exact .of_eq rfl rfl
  | unmark =>
      exact .of_eq rfl rfl
  | settle outcome isOver =>
      rcases isOver with rfl | rfl
      · exact .of_eq rfl rfl
      · exact .of_eq rfl rfl
  | leave =>
      exact .of_withdraw bodies.awaited
  | unwind runs noWait =>
      exact .of_eq rfl (bodies.awaited.trans noWait.symm)

/-- What one turn may do to the marks: it leaves them as they are, or writes or removes one. -/
inductive MarksChange (thread : ThreadId) (gate : Gate) :
    Gate → List Errand → List Errand → Prop
  | same {later : Gate} {before errands : List Errand} :
      later.marks = gate.marks →
      (∀ package context, .marked package context ∈ errands → .marked package context ∈ before) →
      MarksChange thread gate later before errands
  | mark {package : String} {context : ContextId} {rest : List Errand} :
      MarksChange thread gate (gate.mark package ⟨context, thread⟩) (.claimed package :: rest)
        (.marked package context :: rest)
  | unmark {package : String} {context : ContextId} {rest : List Errand} :
      MarksChange thread gate (gate.unmark package) (.marked package context :: rest)
        (.unmarked package :: rest)

theorem marked_mem_of_marked_mem_afterPhase {package marked : String} {context : ContextId}
    {phase next : GatePhase} {rest : List Errand}
    (member : .marked marked context ∈ afterPhase package rest next) :
    .marked marked context ∈ Errand.passing package phase :: rest := by
  have inRest : Errand.marked marked context ∈ rest := by
    cases next with
    | answered answer =>
        cases answer with
        | outcome outcome =>
            exact member
        | claimed =>
            rcases List.mem_cons.mp member with isHead | inRest
            · cases isHead
            · exact inRest
    | _ =>
        rcases List.mem_cons.mp member with isHead | inRest
        · cases isHead
        · exact inRest
  exact List.mem_cons_of_mem _ inRest

theorem Gate.advance_marks (gate : Gate) (thread : ThreadId) (package : String)
    (descends : ContextId → Bool) (phase : GatePhase) :
    (gate.advance thread package descends phase).2.marks = gate.marks := by
  cases phase with
  | judgeMark mark =>
      simp only [advance]
      split
      · rfl
      · split
        · rfl
        · rfl
  | findHolder held turns =>
      cases turns with
      | zero =>
          rfl
      | succ turns =>
          simp only [advance]
          split
          · rfl
          · split
            · rfl
            · rfl
  | lookForMark | openCell | lookForOutcome | findWait _ _ | enterCell =>
      simp only [advance]
      split
      · rfl
      · rfl
  | announceWait | countWaits | refuse | beginInit | leave _ | answered _ =>
      rfl

theorem Turn.marks {thread : ThreadId} {gate later : Gate} {before errands : List Errand}
    (turn : Turn thread gate before later errands) :
    MarksChange thread gate later before errands := by
  cases turn with
  | call package mayCall =>
      refine .same rfl fun marked context member => ?_
      rcases List.mem_cons.mp member with isHead | inRest
      · cases isHead
      · exact inRest
  | @advance package phase rest descends unanswered isReady =>
      exact .same (gate.advance_marks thread package descends phase) fun _ _ member =>
        marked_mem_of_marked_mem_afterPhase member
  | mark context =>
      exact .mark
  | unmark =>
      exact .unmark
  | settle _ _ =>
      refine .same rfl fun marked context member => ?_
      rcases List.mem_cons.mp member with isHead | inRest
      · cases isHead
      · exact List.mem_cons_of_mem _ inRest
  | leave | unwind _ _ =>
      exact .same rfl fun marked context member => List.mem_cons_of_mem _ member

end WorkerMachine
