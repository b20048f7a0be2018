import Mathlib.Data.List.Nodup
import Mathlib.Data.List.Perm.Subperm
import Mathlib.Logic.Function.Basic
import WorkerMachine.Context.Basic
import WorkerMachine.Machine.Gate
/-!
# Tasks in the hands of threads

A call makes a task for each worker of its unit.  From then on every task is in one place only: it
waits for a thread, or a thread is in charge of it, until it has ended.  A thread is in charge of one
task at a time.  The ledger of a call says so, and each of the ways in which a task changes hands
keeps the ledger right.
-/

namespace WorkerMachine

inductive Duty where
  | none
  /-- The thread creates the context of a task. -/
  | preparing (task : Task)
  /-- The thread has a task in hand that has not begun. -/
  | holding (task : Task)
  /-- The thread carries out a task. -/
  | running (task : Task)

namespace Duty

def task? : Duty → Option Task
  | none => .none
  | preparing task | holding task | running task => some task

def unbegun? : Duty → Option (Task × ContextState)
  | preparing task => some (task, .created)
  | holding task => some (task, .runnable)
  | none | running _ => .none

theorem task?_of_unbegun? {duty : Duty} {task : Task} {state : ContextState}
    (unbegun : duty.unbegun? = some (task, state)) : duty.task? = some task := by
  cases duty with
  | preparing held | holding held =>
      cases unbegun
      rfl
  | none | running held =>
      cases unbegun

theorem unbegun_or_running {duty : Duty} {task : Task} (inCharge : duty.task? = some task) :
    (∃ state, duty.unbegun? = some (task, state)) ∨ duty = .running task := by
  cases duty with
  | none =>
      cases inCharge
  | preparing held =>
      cases inCharge
      exact .inl ⟨.created, rfl⟩
  | holding held =>
      cases inCharge
      exact .inl ⟨.runnable, rfl⟩
  | running held =>
      cases inCharge
      exact .inr rfl

end Duty

/-- Which tasks of a call have been made, wait for threads, have begun and have ended, while the
threads have these duties.  No task gets lost unless the call is given up. -/
structure Ledger (made waiting begun ended : List Task) (duties : ThreadId → Duty)
    (givenUp : Bool) : Prop where
  beginsOnce : begun.Nodup
  begins : ∀ task ∈ begun, task ∈ made
  endsOnce : ended.Nodup
  ends : ∀ task ∈ ended, task ∈ begun
  waitsOnce : waiting.Nodup
  waits : ∀ task ∈ waiting, task ∈ made ∧ task ∉ begun
  unbegun : ∀ thread task state, (duties thread).unbegun? = some (task, state) →
    task ∈ made ∧ task ∉ begun ∧ task ∉ waiting
  running : ∀ thread task, duties thread = .running task → task ∈ begun ∧ task ∉ ended
  apart : ∀ first second task, (duties first).task? = some task →
    (duties second).task? = some task → first = second
  attended : givenUp = false → ∀ task ∈ made,
    task ∈ waiting ∨ (∃ thread, (duties thread).task? = some task) ∨ task ∈ ended

namespace Ledger

variable {made waiting begun ended : List Task} {duties : ThreadId → Duty} {givenUp : Bool}
  {thread : ThreadId} {task : Task} {state : ContextState}

/-- A task that is in somebody's hands has been made and has not ended. -/
theorem of_task? (ledger : Ledger made waiting begun ended duties givenUp)
    (inCharge : (duties thread).task? = some task) : task ∈ made ∧ task ∉ ended := by
  rcases Duty.unbegun_or_running inCharge with ⟨state, unbegun⟩ | running
  · obtain ⟨isMade, notBegun, _⟩ := ledger.unbegun thread task state unbegun
    exact ⟨isMade, fun isEnded => notBegun (ledger.ends task isEnded)⟩
  · obtain ⟨isBegun, notEnded⟩ := ledger.running thread task running
    exact ⟨ledger.begins task isBegun, notEnded⟩

theorem length_ended_le (ledger : Ledger made waiting begun ended duties givenUp) :
    ended.length ≤ made.length :=
  (ledger.endsOnce.subperm fun task isEnded =>
    ledger.begins task (ledger.ends task isEnded)).length_le

theorem length_ended_lt (ledger : Ledger made waiting begun ended duties givenUp)
    (isMade : task ∈ made) (notEnded : task ∉ ended) : ended.length < made.length := by
  have inMade : task :: ended ⊆ made := by
    intro other member
    rcases List.mem_cons.mp member with rfl | isEnded
    · exact isMade
    · exact ledger.begins other (ledger.ends other isEnded)
  exact ((List.nodup_cons.mpr ⟨notEnded, ledger.endsOnce⟩).subperm inMade).length_le

theorem exists_unended (distinct : made.Nodup) (fewer : ended.length < made.length) :
    ∃ task ∈ made, task ∉ ended := by
  by_contra noneLeft
  have allEnded : made ⊆ ended := fun task isMade =>
    by_contra fun notEnded => noneLeft ⟨task, isMade, notEnded⟩
  exact Nat.not_lt.mpr (distinct.subperm allEnded).length_le fewer

/-! ## Changes of one duty -/

/-- Threads stay in charge of different tasks if one of them takes over a task that no other thread
is in charge of. -/
theorem apart_update (ledger : Ledger made waiting begun ended duties givenUp) {duty : Duty}
    (alone : ∀ other held, other ≠ thread → duty.task? = some held →
      (duties other).task? ≠ some held) (first second : ThreadId) (task : Task)
    (ofFirst : (Function.update duties thread duty first).task? = some task)
    (ofSecond : (Function.update duties thread duty second).task? = some task) :
    first = second := by
  by_cases firstIs : first = thread
  · subst firstIs
    by_cases secondIs : second = first
    · exact secondIs.symm
    · rw [Function.update_self] at ofFirst
      rw [Function.update_of_ne secondIs] at ofSecond
      exact absurd ofSecond (alone second task secondIs ofFirst)
  · rw [Function.update_of_ne firstIs] at ofFirst
    by_cases secondIs : second = thread
    · subst secondIs
      rw [Function.update_self] at ofSecond
      exact absurd ofFirst (alone first task firstIs ofSecond)
    · rw [Function.update_of_ne secondIs] at ofSecond
      exact ledger.apart first second task ofFirst ofSecond

/-- What is true of the tasks that other threads have not begun, and of those that one thread has
not begun with a new duty, is true of all. -/
theorem forall_unbegun {duty : Duty} {property : Task → Prop}
    (others : ∀ other held state, other ≠ thread → (duties other).unbegun? = some (held, state) →
      property held)
    (new : ∀ held state, duty.unbegun? = some (held, state) → property held)
    (other : ThreadId) (held : Task) (state : ContextState)
    (unbegun : (Function.update duties thread duty other).unbegun? = some (held, state)) :
    property held := by
  by_cases isThread : other = thread
  · subst isThread
    rw [Function.update_self] at unbegun
    exact new held state unbegun
  · rw [Function.update_of_ne isThread] at unbegun
    exact others other held state isThread unbegun

/-- What is true of the tasks that other threads carry out, and of the one that one thread carries
out as a new duty, is true of all. -/
theorem forall_running {duty : Duty} {property : Task → Prop}
    (others : ∀ other held, other ≠ thread → duties other = .running held → property held)
    (new : ∀ held, duty = .running held → property held)
    (other : ThreadId) (held : Task)
    (running : Function.update duties thread duty other = .running held) : property held := by
  by_cases isThread : other = thread
  · subst isThread
    rw [Function.update_self] at running
    exact new held running
  · rw [Function.update_of_ne isThread] at running
    exact others other held isThread running

theorem inCharge_update {duty : Duty} {held : Task}
    (inCharge : ∃ other, (duties other).task? = some held)
    (notThread : (duties thread).task? = some held → duty.task? = some held) :
    ∃ other, (Function.update duties thread duty other).task? = some held := by
  obtain ⟨other, holds⟩ := inCharge
  refine ⟨other, ?_⟩
  by_cases isThread : other = thread
  · subst isThread
    rw [Function.update_self]
    exact notThread holds
  · rw [Function.update_of_ne isThread]
    exact holds

/-! ## Changes of hands -/

theorem make (ledger : Ledger made waiting begun ended duties givenUp)
    (free : duties thread = .none) (isNew : task ∉ made) :
    Ledger (made ++ [task]) waiting begun ended
      (Function.update duties thread (.preparing task)) givenUp where
  beginsOnce := ledger.beginsOnce
  begins := fun other isBegun => List.mem_append_left _ (ledger.begins other isBegun)
  endsOnce := ledger.endsOnce
  ends := ledger.ends
  waitsOnce := ledger.waitsOnce
  waits := by
    intro other waits
    obtain ⟨isMade, notBegun⟩ := ledger.waits other waits
    exact ⟨List.mem_append_left _ isMade, notBegun⟩
  unbegun := by
    refine forall_unbegun ?_ ?_
    · intro other held state _ unbegun
      obtain ⟨isMade, notBegun, notWaiting⟩ := ledger.unbegun other held state unbegun
      exact ⟨List.mem_append_left _ isMade, notBegun, notWaiting⟩
    · intro held state unbegun
      cases unbegun
      exact ⟨List.mem_append_right _ (List.mem_singleton_self _),
        fun isBegun => isNew (ledger.begins _ isBegun), fun waits => isNew (ledger.waits _ waits).1⟩
  running := by
    refine forall_running ?_ ?_
    · exact fun other held _ running => ledger.running other held running
    · intro held running
      cases running
  apart := by
    refine ledger.apart_update fun other held _ isHeld inCharge => ?_
    cases isHeld
    exact isNew (ledger.of_task? inCharge).1
  attended := by
    intro notGivenUp other member
    rcases List.mem_append.mp member with isMade | isTask
    · rcases ledger.attended notGivenUp other isMade with waits | inCharge | isEnded
      · exact .inl waits
      · refine .inr (.inl (inCharge_update inCharge fun holds => ?_))
        rw [free] at holds
        cases holds
      · exact .inr (.inr isEnded)
    · obtain rfl := List.mem_singleton.mp isTask
      refine .inr (.inl ⟨thread, ?_⟩)
      rw [Function.update_self]
      rfl

theorem ready (ledger : Ledger made waiting begun ended duties givenUp)
    (prepares : duties thread = .preparing task) :
    Ledger made waiting begun ended (Function.update duties thread (.holding task)) givenUp where
  beginsOnce := ledger.beginsOnce
  begins := ledger.begins
  endsOnce := ledger.endsOnce
  ends := ledger.ends
  waitsOnce := ledger.waitsOnce
  waits := ledger.waits
  unbegun := by
    refine forall_unbegun ?_ ?_
    · exact fun other held state _ unbegun => ledger.unbegun other held state unbegun
    · intro held state unbegun
      cases unbegun
      refine ledger.unbegun thread _ .created ?_
      rw [prepares]
      rfl
  running := by
    refine forall_running ?_ ?_
    · exact fun other held _ running => ledger.running other held running
    · intro held running
      cases running
  apart := by
    refine ledger.apart_update fun other held different isHeld inCharge => ?_
    cases isHeld
    refine different (ledger.apart other thread _ inCharge ?_)
    rw [prepares]
    rfl
  attended := by
    intro notGivenUp other isMade
    rcases ledger.attended notGivenUp other isMade with waits | inCharge | isEnded
    · exact .inl waits
    · refine .inr (.inl (inCharge_update inCharge fun holds => ?_))
      rw [prepares] at holds
      exact holds
    · exact .inr (.inr isEnded)

theorem spawn (ledger : Ledger made waiting begun ended duties givenUp)
    (holds : duties thread = .holding task) :
    Ledger made (waiting ++ [task]) begun ended (Function.update duties thread .none) givenUp := by
  have inCharge : (duties thread).task? = some task := by
    rw [holds]
    rfl
  obtain ⟨isMade, notBegun, notWaiting⟩ := ledger.unbegun thread task .runnable (by
    rw [holds]
    rfl)
  exact
    { ledger with
      waitsOnce := by
        rw [← List.concat_eq_append]
        exact List.Nodup.concat notWaiting ledger.waitsOnce
      waits := by
        intro other member
        rcases List.mem_append.mp member with waits | isTask
        · exact ledger.waits other waits
        · obtain rfl := List.mem_singleton.mp isTask
          exact ⟨isMade, notBegun⟩
      unbegun := by
        refine forall_unbegun ?_ ?_
        · intro other held state different unbegun
          obtain ⟨heldMade, heldNotBegun, heldNotWaiting⟩ :=
            ledger.unbegun other held state unbegun
          refine ⟨heldMade, heldNotBegun, fun member => ?_⟩
          rcases List.mem_append.mp member with waits | isTask
          · exact heldNotWaiting waits
          · obtain rfl := List.mem_singleton.mp isTask
            exact different (ledger.apart other thread held
              (Duty.task?_of_unbegun? unbegun) inCharge)
        · intro held state unbegun
          cases unbegun
      running := by
        refine forall_running ?_ ?_
        · exact fun other held _ running => ledger.running other held running
        · intro held running
          cases running
      apart := by
        refine ledger.apart_update fun other held _ isHeld _ => ?_
        cases isHeld
      attended := by
        intro notGivenUp other otherMade
        by_cases isTask : other = task
        · subst isTask
          exact .inl (List.mem_append_right _ (List.mem_singleton_self _))
        · rcases ledger.attended notGivenUp other otherMade with waits | someInCharge | isEnded
          · exact .inl (List.mem_append_left _ waits)
          · refine .inr (.inl (inCharge_update someInCharge fun ofThread => ?_))
            rw [inCharge] at ofThread
            exact absurd (Option.some.inj ofThread).symm isTask
          · exact .inr (.inr isEnded) }

theorem arrive {front rest : List Task}
    (ledger : Ledger made (front ++ task :: rest) begun ended duties givenUp)
    (free : duties thread = .none) :
    Ledger made (front ++ rest) begun ended (Function.update duties thread (.holding task))
      givenUp := by
  have inFront : task ∈ front ++ task :: rest := List.mem_append_right _ List.mem_cons_self
  have notLeft : task ∉ front ++ rest := by
    have once := List.nodup_middle.mp ledger.waitsOnce
    exact (List.nodup_cons.mp once).1
  have wasThere : ∀ other, other ∈ front ++ rest → other ∈ front ++ task :: rest := by
    intro other member
    rcases List.mem_append.mp member with isInFront | isInRest
    · exact List.mem_append_left _ isInFront
    · exact List.mem_append_right _ (List.mem_cons_of_mem _ isInRest)
  obtain ⟨isMade, notBegun⟩ := ledger.waits task inFront
  exact
    { ledger with
      waitsOnce := (List.nodup_cons.mp (List.nodup_middle.mp ledger.waitsOnce)).2
      waits := fun other member => ledger.waits other (wasThere other member)
      unbegun := by
        refine forall_unbegun ?_ ?_
        · intro other held state _ unbegun
          obtain ⟨heldMade, heldNotBegun, heldNotWaiting⟩ :=
            ledger.unbegun other held state unbegun
          exact ⟨heldMade, heldNotBegun, fun member => heldNotWaiting (wasThere held member)⟩
        · intro held state unbegun
          cases unbegun
          exact ⟨isMade, notBegun, notLeft⟩
      running := by
        refine forall_running ?_ ?_
        · exact fun other held _ running => ledger.running other held running
        · intro held running
          cases running
      apart := by
        refine ledger.apart_update fun other held _ isHeld inCharge => ?_
        cases isHeld
        rcases Duty.unbegun_or_running inCharge with ⟨state, unbegun⟩ | running
        · exact (ledger.unbegun other task state unbegun).2.2 inFront
        · exact notBegun (ledger.running other task running).1
      attended := by
        intro notGivenUp other otherMade
        by_cases isTask : other = task
        · subst isTask
          refine .inr (.inl ⟨thread, ?_⟩)
          rw [Function.update_self]
          rfl
        · rcases ledger.attended notGivenUp other otherMade with waits | someInCharge | isEnded
          · refine .inl ?_
            rcases List.mem_append.mp waits with isInFront | isTaskOrInRest
            · exact List.mem_append_left _ isInFront
            · rcases List.mem_cons.mp isTaskOrInRest with same | isInRest
              · exact absurd same isTask
              · exact List.mem_append_right _ isInRest
          · refine .inr (.inl (inCharge_update someInCharge fun ofThread => ?_))
            rw [free] at ofThread
            cases ofThread
          · exact .inr (.inr isEnded) }

theorem start (ledger : Ledger made waiting begun ended duties givenUp)
    (holds : duties thread = .holding task) :
    Ledger made waiting (begun ++ [task]) ended (Function.update duties thread (.running task))
      givenUp := by
  have inCharge : (duties thread).task? = some task := by
    rw [holds]
    rfl
  obtain ⟨isMade, notBegun, notWaiting⟩ := ledger.unbegun thread task .runnable (by
    rw [holds]
    rfl)
  exact
    { ledger with
      beginsOnce := by
        rw [← List.concat_eq_append]
        exact List.Nodup.concat notBegun ledger.beginsOnce
      begins := by
        intro other member
        rcases List.mem_append.mp member with isBegun | isTask
        · exact ledger.begins other isBegun
        · obtain rfl := List.mem_singleton.mp isTask
          exact isMade
      ends := fun other isEnded => List.mem_append_left _ (ledger.ends other isEnded)
      waits := by
        intro other waits
        obtain ⟨otherMade, otherNotBegun⟩ := ledger.waits other waits
        refine ⟨otherMade, fun member => ?_⟩
        rcases List.mem_append.mp member with isBegun | isTask
        · exact otherNotBegun isBegun
        · obtain rfl := List.mem_singleton.mp isTask
          exact notWaiting waits
      unbegun := by
        refine forall_unbegun ?_ ?_
        · intro other held state different unbegun
          obtain ⟨heldMade, heldNotBegun, heldNotWaiting⟩ :=
            ledger.unbegun other held state unbegun
          refine ⟨heldMade, fun member => ?_, heldNotWaiting⟩
          rcases List.mem_append.mp member with isBegun | isTask
          · exact heldNotBegun isBegun
          · obtain rfl := List.mem_singleton.mp isTask
            exact different (ledger.apart other thread held
              (Duty.task?_of_unbegun? unbegun) inCharge)
        · intro held state unbegun
          cases unbegun
      running := by
        refine forall_running ?_ ?_
        · intro other held _ running
          obtain ⟨isBegun, notEnded⟩ := ledger.running other held running
          exact ⟨List.mem_append_left _ isBegun, notEnded⟩
        · intro held running
          cases running
          exact ⟨List.mem_append_right _ (List.mem_singleton_self _),
            fun isEnded => notBegun (ledger.ends _ isEnded)⟩
      apart := by
        refine ledger.apart_update fun other held different isHeld otherInCharge => ?_
        cases isHeld
        exact different (ledger.apart other thread task otherInCharge inCharge)
      attended := by
        intro notGivenUp other otherMade
        rcases ledger.attended notGivenUp other otherMade with waits | someInCharge | isEnded
        · exact .inl waits
        · refine .inr (.inl (inCharge_update someInCharge fun ofThread => ?_))
          rw [inCharge] at ofThread
          exact ofThread
        · exact .inr (.inr isEnded) }

theorem finish (ledger : Ledger made waiting begun ended duties givenUp)
    (runs : duties thread = .running task) :
    Ledger made waiting begun (ended ++ [task]) (Function.update duties thread .none) givenUp := by
  have inCharge : (duties thread).task? = some task := by
    rw [runs]
    rfl
  obtain ⟨isBegun, notEnded⟩ := ledger.running thread task runs
  exact
    { ledger with
      endsOnce := by
        rw [← List.concat_eq_append]
        exact List.Nodup.concat notEnded ledger.endsOnce
      ends := by
        intro other member
        rcases List.mem_append.mp member with isEnded | isTask
        · exact ledger.ends other isEnded
        · obtain rfl := List.mem_singleton.mp isTask
          exact isBegun
      unbegun := by
        refine forall_unbegun ?_ ?_
        · exact fun other held state _ unbegun => ledger.unbegun other held state unbegun
        · intro held state unbegun
          cases unbegun
      running := by
        refine forall_running ?_ ?_
        · intro other held different running
          obtain ⟨heldBegun, heldNotEnded⟩ := ledger.running other held running
          refine ⟨heldBegun, fun member => ?_⟩
          rcases List.mem_append.mp member with isEnded | isTask
          · exact heldNotEnded isEnded
          · obtain rfl := List.mem_singleton.mp isTask
            refine different (ledger.apart other thread held ?_ inCharge)
            rw [running]
            rfl
        · intro held running
          cases running
      apart := by
        refine ledger.apart_update fun other held _ isHeld _ => ?_
        cases isHeld
      attended := by
        intro notGivenUp other otherMade
        by_cases isTask : other = task
        · subst isTask
          exact .inr (.inr (List.mem_append_right _ (List.mem_singleton_self _)))
        · rcases ledger.attended notGivenUp other otherMade with waits | someInCharge | isEnded
          · exact .inl waits
          · refine .inr (.inl (inCharge_update someInCharge fun ofThread => ?_))
            rw [inCharge] at ofThread
            exact absurd (Option.some.inj ofThread).symm isTask
          · exact .inr (.inr (List.mem_append_left _ isEnded)) }

theorem drop (ledger : Ledger made waiting begun ended duties true) :
    Ledger made waiting begun ended (Function.update duties thread .none) true where
  beginsOnce := ledger.beginsOnce
  begins := ledger.begins
  endsOnce := ledger.endsOnce
  ends := ledger.ends
  waitsOnce := ledger.waitsOnce
  waits := ledger.waits
  unbegun := by
    refine forall_unbegun ?_ ?_
    · exact fun other held state _ unbegun => ledger.unbegun other held state unbegun
    · intro held state unbegun
      cases unbegun
  running := by
    refine forall_running ?_ ?_
    · exact fun other held _ running => ledger.running other held running
    · intro held running
      cases running
  apart := by
    refine ledger.apart_update fun other held _ isHeld _ => ?_
    cases isHeld
  attended := by
    intro notGivenUp
    cases notGivenUp

end Ledger

end WorkerMachine
