import WorkerMachine.Machine.Initialization
import WorkerMachine.Proofs.Gate.Rings
/-!
# The walk along the waits

Before a thread waits for a package, it walks from the package to the thread that initializes it, on to
the package for which that thread waits, and so on, to see whether it would come back to itself.  The
walk takes one turn more than there are waits.  On maps that nobody changes meanwhile this is enough:
the threads on the way to the first return are all different, and each of them waits.
-/

namespace WorkerMachine

def GatePhase.isWalking : GatePhase → Bool
  | countWaits | findHolder _ _ | findWait _ _ => true
  | _ => false

namespace Gate

variable {gate : Gate} {thread : ThreadId} {package : String}

/-- The thread that is reached from a package in a number of hops, each of which leads from a thread to
the one that initializes the package for which it waits. -/
def holderAfter? (gate : Gate) (package : String) (hops : Nat) : Option ThreadId :=
  (gate.holder? package).bind (gate.follow hops)

/-- Let a call go on walking, with nobody beside it, for at most a number of operations. -/
def walk (gate : Gate) (thread : ThreadId) (package : String) (descends : ContextId → Bool) :
    Nat → GatePhase → GatePhase × Gate
  | 0, phase => (phase, gate)
  | operations + 1, phase =>
    if phase.isWalking then
      (gate.advance thread package descends phase).2.walk thread package descends operations
        (gate.advance thread package descends phase).1
    else (phase, gate)

/-- Whether a walk from a package comes back to its thread within a number of turns. -/
def comesBack (gate : Gate) (thread : ThreadId) : Nat → String → Bool
  | 0, _ => false
  | turns + 1, package =>
    match gate.holder? package with
    | none => false
    | some holder =>
      if holder = thread then true
      else
        match gate.waits.get? holder with
        | none => false
        | some next => gate.comesBack thread turns next

/-! ## What is reached -/

theorem holderAfter?_zero (gate : Gate) (package : String) :
    gate.holderAfter? package 0 = gate.holder? package := by
  cases held : gate.holder? package <;> simp [holderAfter?, held, follow]

theorem holderAfter?_add (gate : Gate) (package : String) (hops more : Nat) :
    gate.holderAfter? package (hops + more) =
      (gate.holderAfter? package hops).bind (gate.follow more) := by
  cases held : gate.holder? package <;> simp [holderAfter?, held, follow_add]

theorem holderAfter?_succ {holder : ThreadId} (held : gate.holder? package = some holder)
    (hops : Nat) :
    gate.holderAfter? package (hops + 1) =
      (gate.waits.get? holder).bind fun next => gate.holderAfter? next hops := by
  cases waits : gate.waits.get? holder <;> simp [holderAfter?, held, follow, next?, waits]

/-- Where two hops lead to the same thread, the way between them can be left out. -/
theorem holderAfter?_of_same {first second hops : Nat} {reached : ThreadId} (inOrder : first < second)
    (within : second ≤ hops)
    (same : gate.holderAfter? package first = gate.holderAfter? package second)
    (reaches : gate.holderAfter? package hops = some reached) :
    ∃ fewer, fewer < hops ∧ gate.holderAfter? package fewer = some reached := by
  refine ⟨first + (hops - second), by omega, ?_⟩
  rw [holderAfter?_add, same, ← holderAfter?_add, Nat.add_sub_cancel' within]
  exact reaches

/-- Whoever is reached is reached in no more hops than there are waits. -/
theorem exists_short_way (reaches : ∃ hops, gate.holderAfter? package hops = some thread) :
    ∃ hops, hops ≤ gate.waits.size ∧ gate.holderAfter? package hops = some thread := by
  classical
  refine ⟨Nat.find reaches, ?_, Nat.find_spec reaches⟩
  have shortest := Nat.find_spec reaches
  cases held : gate.holder? package with
  | none => simp [holderAfter?, held] at shortest
  | some holder =>
      have along : ∀ steps, gate.follow steps holder = gate.holderAfter? package steps := by
        simp [holderAfter?, held]
      -- Up to the first arrival no thread is met twice, and each of them waits.
      refine length_le_of_follow_ne holder ?_ ?_
      · intro left right inOrder before meet
        rw [along, along] at meet
        rcases holderAfter?_of_same inOrder (Nat.le_of_lt before) meet shortest with
          ⟨fewer, less, again⟩
        exact Nat.find_min reaches less again
      · intro steps before
        rw [← along, show Nat.find reaches = steps + (Nat.find reaches - steps - 1 + 1) by omega,
          follow_add] at shortest
        rcases Option.bind_eq_some_iff.mp shortest with ⟨reached, found, goesOn⟩
        rcases Option.bind_eq_some_iff.mp goesOn with ⟨next, hasNext, _⟩
        exact ⟨reached, next, found, hasNext⟩

/-- Who is not met before the way comes back to another thread is never met. -/
theorem holderAfter?_ne_of_ring {first second : Nat} (inOrder : first < second)
    (same : gate.holderAfter? package first = gate.holderAfter? package second)
    (notBefore : ∀ hops, hops < second → gate.holderAfter? package hops ≠ some thread) (hops : Nat) :
    gate.holderAfter? package hops ≠ some thread := by
  induction hops using Nat.strong_induction_on with
  | _ hops inductionHypothesis =>
      by_cases early : hops < second
      · exact notBefore hops early
      · intro reaches
        rcases holderAfter?_of_same inOrder (Nat.le_of_not_lt early) same reaches with
          ⟨fewer, less, again⟩
        exact inductionHypothesis fewer less again

/-! ## What is found -/

/-- A walk comes back exactly if it has a turn for every hop up to its own thread. -/
theorem comesBack_iff {turns : Nat} :
    gate.comesBack thread turns package = true ↔
      ∃ hops, hops < turns ∧ gate.holderAfter? package hops = some thread := by
  induction turns generalizing package with
  | zero => simp [comesBack]
  | succ turns inductionHypothesis =>
      cases held : gate.holder? package with
      | none => simp [comesBack, holderAfter?, held]
      | some holder =>
          by_cases own : holder = thread
          · have atOnce : gate.holderAfter? package 0 = some thread := by
              rw [holderAfter?_zero, held, own]
            simp only [comesBack, held, own, if_true, true_iff]
            exact ⟨0, by omega, atOnce⟩
          · have notAtOnce : gate.holderAfter? package 0 ≠ some thread := by
              rw [holderAfter?_zero, held]
              simpa using own
            -- The first hop is looked at by this turn, and all others by the turns that are left.
            have later : (∃ hops, hops < turns + 1 ∧ gate.holderAfter? package hops = some thread) ↔
                ∃ hops, hops < turns ∧ gate.holderAfter? package (hops + 1) = some thread := by
              constructor
              · intro ⟨hops, less, reaches⟩
                cases hops with
                | zero => exact absurd reaches notAtOnce
                | succ hops => exact ⟨hops, by omega, reaches⟩
              · intro ⟨hops, less, reaches⟩
                exact ⟨hops + 1, by omega, reaches⟩
            rw [later]
            cases waits : gate.waits.get? holder with
            | none => simp [comesBack, held, own, waits, holderAfter?_succ held]
            | some next =>
                simp only [comesBack, held, own, waits, holderAfter?_succ held, if_false,
                  Option.bind_some]
                exact inductionHypothesis

/-- With more turns than there are waits, a walk finds its own thread wherever it stands on the way. -/
theorem comesBack_iff_of_lt {turns : Nat} (enough : gate.waits.size < turns) :
    gate.comesBack thread turns package = true ↔
      ∃ hops, gate.holderAfter? package hops = some thread := by
  rw [comesBack_iff]
  constructor
  · intro ⟨hops, _, reaches⟩
    exact ⟨hops, reaches⟩
  · intro reaches
    rcases exists_short_way reaches with ⟨hops, short, shortReaches⟩
    exact ⟨hops, by omega, shortReaches⟩

theorem comesBack_congr {turns more : Nat} (enough : gate.waits.size < turns)
    (alsoEnough : gate.waits.size < more) :
    gate.comesBack thread turns package = gate.comesBack thread more package := by
  rw [Bool.eq_iff_iff, comesBack_iff_of_lt enough, comesBack_iff_of_lt alsoEnough]

/-! ## What is done -/

variable {descends : ContextId → Bool} {operations : Nat} {phase : GatePhase}

theorem walk_of_not_walking (decided : phase.isWalking = false) :
    gate.walk thread package descends operations phase = (phase, gate) := by
  cases operations <;> simp [walk, decided]

theorem advance_of_walking (walking : phase.isWalking = true) :
    (gate.advance thread package descends phase).2 = gate := by
  cases phase with
  | countWaits => rfl
  | findHolder asked turns =>
      cases turns with
      | zero => rfl
      | succ turns =>
          simp only [advance]
          split
          · rfl
          · split <;> rfl
  | findWait holder turns =>
      simp only [advance]
      split <;> rfl
  | _ => cases walking

theorem walk_of_walking (walking : phase.isWalking = true) :
    gate.walk thread package descends (operations + 1) phase =
      gate.walk thread package descends operations
        (gate.advance thread package descends phase).1 := by
  rw [walk, if_pos walking, advance_of_walking walking]

/-- Operation by operation, a call refuses itself exactly if its walk comes back within its turns, and
otherwise goes on to the cell. -/
theorem walk_findHolder {turns : Nat} {asked : String} (enough : 2 * turns + 1 ≤ operations) :
    gate.walk thread package descends operations (.findHolder asked turns) =
      (if gate.comesBack thread turns asked then .refuse else .enterCell, gate) := by
  induction turns generalizing asked operations with
  | zero =>
      obtain ⟨operations, rfl⟩ := Nat.exists_eq_add_of_le' enough
      rw [walk_of_walking rfl]
      exact walk_of_not_walking rfl
  | succ turns inductionHypothesis =>
      -- A turn looks for a holder first and then, in an operation of its own, for the holder's wait.
      obtain ⟨operations, rfl⟩ : ∃ fewer, operations = fewer + 1 + 1 := ⟨operations - 2, by omega⟩
      rw [walk_of_walking rfl]
      cases marked : gate.marks.get? asked with
      | none =>
          simp only [advance, marked, comesBack, holder?, Option.map_none]
          exact walk_of_not_walking rfl
      | some mark =>
          by_cases own : mark.thread = thread
          · simp only [advance, marked, comesBack, holder?, Option.map_some, own, if_true]
            exact walk_of_not_walking rfl
          · simp only [advance, marked, comesBack, holder?, Option.map_some, own, if_false]
            rw [walk_of_walking rfl]
            cases waits : gate.waits.get? mark.thread with
            | none =>
                simp only [advance, waits]
                exact walk_of_not_walking rfl
            | some next =>
                simp only [advance, waits]
                exact inductionHypothesis (by omega)

theorem walk_countWaits (enough : 2 * gate.waits.size + 4 ≤ operations) :
    gate.walk thread package descends operations .countWaits =
      (if gate.comesBack thread (gate.waits.size + 1) package then .refuse else .enterCell, gate) := by
  obtain ⟨operations, rfl⟩ := Nat.exists_eq_add_of_le' (Nat.le_trans (Nat.le_add_left 1 _) enough)
  rw [walk_of_walking rfl]
  exact walk_findHolder (by omega)

theorem walk_eq_refuse_iff :
    gate.walk thread package descends (2 * gate.waits.size + 4) .countWaits = (.refuse, gate) ↔
      ∃ hops, gate.holderAfter? package hops = some thread := by
  rw [walk_countWaits (Nat.le_refl _), ← comesBack_iff_of_lt (Nat.lt_succ_self gate.waits.size)]
  cases gate.comesBack thread (gate.waits.size + 1) package <;> simp

theorem walk_eq_enterCell_iff :
    gate.walk thread package descends (2 * gate.waits.size + 4) .countWaits = (.enterCell, gate) ↔
      ∀ hops, gate.holderAfter? package hops ≠ some thread := by
  rw [walk_countWaits (Nat.le_refl _), ← not_exists,
    ← comesBack_iff_of_lt (Nat.lt_succ_self gate.waits.size)]
  cases gate.comesBack thread (gate.waits.size + 1) package <;> simp

end Gate

/-- A thread that moves alone at the gate walks as on the maps that it finds there. -/
theorem Station.exists_runAlone_walk (station : Station) (package : String) (caller : ContextId)
    (machine : Machine) (operations : Nat) (phase : GatePhase) :
    ∃ taken, taken ≤ operations ∧
      (station.advancePhases package caller taken phase).runAlone machine =
        some ((machine.gate.walk station.thread package
          (fun context => ((machine.arena Machine.ownArena).ancestry caller).contains context)
          operations phase).1, machine) := by
  induction operations generalizing phase with
  | zero => exact ⟨0, Nat.le_refl 0, rfl⟩
  | succ operations inductionHypothesis =>
      by_cases walking : phase.isWalking = true
      · rcases inductionHypothesis (machine.gate.advance station.thread package
          (fun context => ((machine.arena Machine.ownArena).ancestry caller).contains context)
          phase).1 with ⟨taken, few, ran⟩
        have unanswered : phase.answer? = none := by
          cases phase <;> first | rfl | cases walking
        have isReady : machine.gate.ready package phase = true := by
          cases phase <;> first | rfl | cases walking
        refine ⟨taken + 1, by omega, ?_⟩
        rw [advancePhases_succ station package caller taken unanswered, Process.runAlone,
          if_pos isReady, Gate.advance_of_walking walking, Gate.walk_of_walking walking]
        exact ran
      · refine ⟨0, Nat.zero_le _, ?_⟩
        rw [Gate.walk_of_not_walking (Bool.eq_false_iff.mpr walking)]
        rfl

/-- On maps that nobody changes meanwhile the walk along the waits is exact: a call refuses itself if some
number of hops leads from the package back to its own thread, and goes on to the cell otherwise.  More
turns would not find more, and a ring of other threads ends the walk without a refusal.  So does a thread
that moves alone on a machine. -/
theorem walk_along_waits_exact (gate : Gate) (thread : ThreadId) (package : String)
    (descends : ContextId → Bool) :
    let walked := gate.walk thread package descends (2 * gate.waits.size + 4) .countWaits
    (walked = (.refuse, gate) ↔ ∃ hops, gate.holderAfter? package hops = some thread) ∧
      (walked = (.enterCell, gate) ↔ ∀ hops, gate.holderAfter? package hops ≠ some thread) ∧
      (∀ turns, gate.waits.size < turns →
        gate.walk thread package descends (2 * turns + 1) (.findHolder package turns) = walked) ∧
      (∀ first second other, first < second → gate.holderAfter? package first = some other →
        gate.holderAfter? package second = some other →
        (∀ hops, hops < second → gate.holderAfter? package hops ≠ some thread) →
          walked = (.enterCell, gate)) ∧
      ∀ (station : Station) (caller : ContextId) (machine : Machine), station.thread = thread →
        machine.gate = gate → ∃ operations, operations ≤ 2 * gate.waits.size + 4 ∧
          (station.advancePhases package caller operations .countWaits).runAlone machine =
            some (walked.1, machine) := by
  refine ⟨Gate.walk_eq_refuse_iff, Gate.walk_eq_enterCell_iff, ?_, ?_, ?_⟩
  · intro turns more
    rw [Gate.walk_findHolder (Nat.le_refl _), Gate.walk_countWaits (Nat.le_refl _),
      Gate.comesBack_congr more (Nat.lt_succ_self gate.waits.size)]
  · intro first second other inOrder atFirst atSecond notBefore
    have same := atFirst.trans atSecond.symm
    exact Gate.walk_eq_enterCell_iff.mpr (Gate.holderAfter?_ne_of_ring inOrder same notBefore)
  · intro station caller machine sameThread sameGate
    subst sameThread sameGate
    rcases station.exists_runAlone_walk package caller machine (2 * machine.gate.waits.size + 4)
      .countWaits with ⟨operations, few, ran⟩
    refine ⟨operations, few, ran.trans ?_⟩
    rw [Gate.walk_countWaits (Nat.le_refl _), Gate.walk_countWaits (Nat.le_refl _)]

/-- Where a thread does not wait itself, the way back to it may need a turn for each wait and one more.
Once it waits, too, all others walk around the ring without being refused. -/
theorem walk_along_waits_exact_of_longest :
    let marks : Table String InitMark := ⟨[("a", ⟨0, 2⟩), ("b", ⟨0, 3⟩), ("c", ⟨0, 1⟩)]⟩
    let gate : Gate := { marks := marks, waits := ⟨[(2, "b"), (3, "c")]⟩ }
    let ring : Gate := { marks := marks, waits := ⟨[(2, "b"), (3, "c"), (1, "a")]⟩ }
    let nowhere : ContextId → Bool := fun _ => false
    gate.walk 1 "a" nowhere 8 .countWaits = (.refuse, gate) ∧
      gate.walk 1 "a" nowhere 11 (.findHolder "a" 5) = (.refuse, gate) ∧
      gate.walk 1 "a" nowhere 5 (.findHolder "a" 2) = (.enterCell, gate) ∧
      ring.walk 4 "a" nowhere 10 .countWaits = (.enterCell, ring) := by
  intro marks gate ring nowhere
  obtain ⟨refuses, _, others, _⟩ := walk_along_waits_exact gate 1 "a" nowhere
  obtain ⟨_, _, _, around, _⟩ := walk_along_waits_exact ring 4 "a" nowhere
  have refused := refuses.mpr ⟨2, rfl⟩
  exact ⟨refused, (others 5 (by decide)).trans refused, rfl,
    around 0 3 2 (by decide) rfl rfl (by decide)⟩

end WorkerMachine
