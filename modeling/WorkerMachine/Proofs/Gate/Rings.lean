import Mathlib.Data.List.Nodup
import Mathlib.Data.List.Perm.Subperm
import Mathlib.Data.Nat.Find
import WorkerMachine.Machine.Gate
/-!
# Rings of waiting threads

A thread waits for a package, and a package is initialized by a thread, so the maps of a gate lead
from thread to thread.  A thread that is reached from itself stands on a ring.  Every thread has at
most one thread to follow, so that whatever is reached from a ring lies on it, and a ring is no
longer than there are waits.
-/

namespace WorkerMachine

namespace Gate

def holder? (gate : Gate) (package : String) : Option ThreadId :=
  (gate.marks.get? package).map InitMark.thread

def next? (gate : Gate) (thread : ThreadId) : Option ThreadId :=
  (gate.waits.get? thread).bind gate.holder?

def follow (gate : Gate) : Nat → ThreadId → Option ThreadId
  | 0, thread => some thread
  | steps + 1, thread => (gate.next? thread).bind (gate.follow steps)

/-- A thread that is reached from itself in at least one step. -/
def OnRing (gate : Gate) (thread : ThreadId) : Prop :=
  ∃ steps, 0 < steps ∧ gate.follow steps thread = some thread

variable {gate later : Gate} {thread reached : ThreadId} {steps : Nat}

theorem follow_add (gate : Gate) (first second : Nat) (thread : ThreadId) :
    gate.follow (first + second) thread =
      (gate.follow first thread).bind (gate.follow second) := by
  induction first generalizing thread with
  | zero =>
      rw [Nat.zero_add]
      rfl
  | succ first inductionHypothesis =>
      rw [Nat.succ_add_eq_add_succ, Nat.add_succ]
      change (gate.next? thread).bind (gate.follow (first + second)) =
        ((gate.next? thread).bind (gate.follow first)).bind (gate.follow second)
      cases gate.next? thread with
      | none =>
          rfl
      | some next =>
          exact inductionHypothesis next

theorem follow_one (gate : Gate) (thread : ThreadId) :
    gate.follow 1 thread = gate.next? thread := by
  change (gate.next? thread).bind some = gate.next? thread
  exact Option.bind_fun_some (gate.next? thread)

/-- One more step may also be taken at the end. -/
theorem follow_succ (gate : Gate) (steps : Nat) (thread : ThreadId) :
    gate.follow (steps + 1) thread = (gate.follow steps thread).bind gate.next? := by
  rw [follow_add]
  congr 1
  funext last
  exact follow_one gate last

theorem follow_trans {first second : Nat} {middle last : ThreadId}
    (toMiddle : gate.follow first thread = some middle)
    (toLast : gate.follow second middle = some last) :
    gate.follow (first + second) thread = some last := by
  rw [follow_add, toMiddle]
  exact toLast

/-- Going around a ring any number of times leads back. -/
theorem follow_mul (around : gate.follow steps thread = some thread) (times : Nat) :
    gate.follow (times * steps) thread = some thread := by
  induction times with
  | zero =>
      rw [Nat.zero_mul]
      rfl
  | succ times inductionHypothesis =>
      rw [Nat.succ_mul]
      exact follow_trans inductionHypothesis around

/-- Whatever is reached from a ring leads back. -/
theorem OnRing.back (onRing : gate.OnRing thread)
    (reaches : gate.follow steps thread = some reached) :
    ∃ back, 0 < back ∧ gate.follow back reached = some thread := by
  obtain ⟨length, positive, around⟩ := onRing
  have enough : steps ≤ steps * length := Nat.le_mul_of_pos_right steps positive
  have further : steps + (steps * length - steps + length) = (steps + 1) * length := by
    rw [Nat.succ_mul]
    omega
  have aroundAgain := follow_mul around (steps + 1)
  rw [← further, follow_add, reaches] at aroundAgain
  exact ⟨_, by omega, aroundAgain⟩

theorem OnRing.of_follow (onRing : gate.OnRing thread)
    (reaches : gate.follow steps thread = some reached) : gate.OnRing reached := by
  obtain ⟨back, positive, leadsBack⟩ := onRing.back reaches
  exact ⟨back + steps, by omega, follow_trans leadsBack reaches⟩

/-- Every thread on a ring has a thread to follow. -/
theorem OnRing.exists_next (onRing : gate.OnRing thread) :
    ∃ next, gate.next? thread = some next := by
  obtain ⟨steps, positive, around⟩ := onRing
  cases steps with
  | zero =>
      omega
  | succ steps =>
      cases found : gate.next? thread with
      | none =>
          change (gate.next? thread).bind (gate.follow steps) = some thread at around
          rw [found] at around
          cases around
      | some next =>
          exact ⟨next, rfl⟩

theorem exists_wait_of_next (found : gate.next? thread = some reached) :
    ∃ package, gate.waits.get? thread = some package ∧
      gate.holder? package = some reached := by
  unfold next? at found
  exact Option.bind_eq_some_iff.mp found

theorem next_of_wait {package : String} (waits : gate.waits.get? thread = some package)
    (held : gate.holder? package = some reached) : gate.next? thread = some reached := by
  unfold next?
  rw [waits]
  exact held

/-- Where two gates agree on everything that is reached, the same is reached. -/
theorem follow_congr
    (same : ∀ steps reached, gate.follow steps thread = some reached →
      later.next? reached = gate.next? reached) (steps : Nat) :
    later.follow steps thread = gate.follow steps thread := by
  induction steps with
  | zero =>
      rfl
  | succ steps inductionHypothesis =>
      rw [follow_succ, follow_succ, inductionHypothesis]
      cases found : gate.follow steps thread with
      | none =>
          rfl
      | some last =>
          exact same steps last found

/-! ## The length of a ring -/

/-- Two different numbers of steps up to the first return lead to different threads. -/
theorem follow_injective {length : Nat} (around : gate.follow length thread = some thread)
    (first : ∀ steps, 0 < steps → steps < length → gate.follow steps thread ≠ some thread)
    {left right : Nat} (leftBefore : left < right) (rightBefore : right < length) :
    gate.follow left thread ≠ gate.follow right thread := by
  intro meet
  have rest : right + (length - right) = length := by omega
  have fromRight : (gate.follow right thread).bind (gate.follow (length - right)) =
      some thread := by
    rw [← follow_add, rest]
    exact around
  rw [← meet, ← follow_add] at fromRight
  exact first (left + (length - right)) (by omega) (by omega) fromRight

/-- Threads that are reached, all different and each with a thread to follow, are no more than there
are waits. -/
theorem length_le_of_follow_ne (thread : ThreadId) {count : Nat}
    (differ : ∀ left right, left < right → right < count →
      gate.follow left thread ≠ gate.follow right thread)
    (goOn : ∀ steps, steps < count → ∃ reached next, gate.follow steps thread = some reached ∧
      gate.next? reached = some next) :
    count ≤ gate.waits.size := by
  have distinct : ((List.range count).map fun steps => gate.follow steps thread).Nodup := by
    refine List.pairwise_map.mpr (List.pairwise_lt_range.imp_of_mem ?_)
    intro left right _ rightMember before
    exact differ left right before (List.mem_range.mp rightMember)
  have waiting : ((List.range count).map fun steps => gate.follow steps thread) ⊆
      gate.waits.keys.map some := by
    intro last member
    obtain ⟨steps, inRange, rfl⟩ := List.mem_map.mp member
    obtain ⟨reached, next, found, hasNext⟩ := goOn steps (List.mem_range.mp inRange)
    obtain ⟨package, waits, _⟩ := exists_wait_of_next hasNext
    rw [found]
    exact List.mem_map.mpr ⟨reached, Table.mem_keys_of_get? waits, rfl⟩
  have counted := (distinct.subperm waiting).length_le
  simpa [Table.keys, Table.size] using counted

/-- A ring is no longer than there are waits. -/
theorem OnRing.exists_short (onRing : gate.OnRing thread) :
    ∃ steps, 0 < steps ∧ steps ≤ gate.waits.size ∧ gate.follow steps thread = some thread := by
  classical
  have returns : ∃ steps, 0 < steps ∧ gate.follow steps thread = some thread := onRing
  obtain ⟨positive, around⟩ := Nat.find_spec returns
  have first : ∀ steps, 0 < steps → steps < Nat.find returns →
      gate.follow steps thread ≠ some thread :=
    fun steps isPositive isBefore again => Nat.find_min returns isBefore ⟨isPositive, again⟩
  refine ⟨Nat.find returns, positive, length_le_of_follow_ne thread ?_ ?_, around⟩
  · intro left right
    exact follow_injective around first
  · intro steps before
    have goesOn : (gate.follow steps thread).bind
        (gate.follow (Nat.find returns - steps)) = some thread := by
      rw [← follow_add, Nat.add_sub_of_le (Nat.le_of_lt before)]
      exact around
    obtain ⟨reached, found, _⟩ := Option.bind_eq_some_iff.mp goesOn
    obtain ⟨next, hasNext⟩ := (onRing.of_follow found).exists_next
    exact ⟨reached, next, found, hasNext⟩

/-- Who can follow for good comes to a ring. -/
theorem exists_onRing
    (goOn : ∀ steps, ∃ reached next, gate.follow steps thread = some reached ∧
      gate.next? reached = some next) :
    ∃ steps reached, gate.follow steps thread = some reached ∧ gate.OnRing reached := by
  by_contra noRing
  have never : ∀ left right, left < right →
      gate.follow left thread ≠ gate.follow right thread := by
    intro left right before meet
    obtain ⟨reached, next, found, _⟩ := goOn left
    refine noRing ⟨left, reached, found, right - left, by omega, ?_⟩
    have further := follow_add gate left (right - left) thread
    rw [Nat.add_sub_of_le (Nat.le_of_lt before), ← meet, found] at further
    exact further.symm
  have counted : gate.waits.size + 1 ≤ gate.waits.size :=
    length_le_of_follow_ne thread (fun left right before _ => never left right before)
      fun steps _ => goOn steps
  omega

end Gate

end WorkerMachine
