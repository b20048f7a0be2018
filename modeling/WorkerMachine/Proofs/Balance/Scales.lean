import Mathlib.Algebra.BigOperators.Pi
import Mathlib.Data.Set.Card
import Mathlib.Tactic.Abel
import WorkerMachine.Proofs.Failing.Outcomes
import WorkerMachine.Proofs.Gate.Rings
/-!
# Counts that balance

A machine counts the contexts, the workers, the responses and the inits of the calls that are made on
it.  When all calls are over, these counts balance each other: a context has been made for every worker
that was scheduled or run by its caller, every response goes with one worker that was run by its caller,
and so on.  While calls are under way the scales are tilted.  How far they are is the sum of what single
threads have contributed to it, so a thread that leaves its own share as it was leaves the scales as they
were, whatever others do meanwhile.
-/

namespace WorkerMachine

def Tallies.plus (tallies more : Tallies) : Tallies where
  contexts := tallies.contexts + more.contexts
  scheduled := tallies.scheduled + more.scheduled
  inCaller := tallies.inCaller + more.inCaller
  responses := tallies.responses + more.responses
  inits := tallies.inits + more.inits

/-- The unit that has been dispatched, if its first worker begins: of every unit that is dispatched one
worker runs on the path of the caller. -/
def Happening.dispatched? : Happening → Option Callable
  | .started task => if task.context.inCaller then task.context.activity.map Prod.fst else none
  | .ended _ _ _ | .initCalled _ _ => none

/-- The units that have been dispatched in the course of a history, each as often as it was. -/
def dispatchedUnits (history : List Happening) : List Callable :=
  history.filterMap Happening.dispatched?

def workerCount (units : List Callable) : Nat :=
  (units.map fun unit => unit.workers.length).sum

def Program.HasInit (program : Program) (name : String) : Prop :=
  ∃ package, program.package name = .ok package ∧ package.init.isSome = true

/-- The packages with an init unit whose cells have been filled, with whatever outcome. -/
def Program.initialized (program : Program) (gate : Gate) : Set String :=
  {name | program.HasInit name ∧ ∃ outcome, gate.outcome? name = some outcome}

/-- Since a machine was like `before`, calls have been made and are over, and the counts that were added
balance each other. -/
structure Program.Balances (program : Program) (before after : Machine) (spent : Tallies)
    (happened : List Happening) : Prop where
  tallies : after.tallies = before.tallies.plus spent
  history : after.history = happened ++ before.history
  contexts : spent.contexts = spent.scheduled + spent.inCaller
  responses : spent.responses = spent.inCaller
  /-- One response has been created for each unit that was dispatched. -/
  units : spent.responses = (dispatchedUnits happened).length
  workers : spent.contexts = workerCount (dispatchedUnits happened)
  inits : spent.inits =
    (program.initialized after.gate \ program.initialized before.gate).ncard

namespace Balance

/-- Pairs of counts that are level when all calls are over. -/
inductive Scale where
  /-- Contexts for workers, and workers that were scheduled or run by their callers. -/
  | contexts
  /-- Responses, and workers that were run by their callers. -/
  | responses
  /-- Workers that were run by their callers, and units that were dispatched. -/
  | units
  /-- Contexts for workers, and the workers of the units that were dispatched. -/
  | workers
  /-- Inits, and packages that have been initialized. -/
  | inits

/-- How far each scale is tilted. -/
abbrev Tilt := Scale → ℤ

def tilt (contexts responses units workers inits : ℤ) : Tilt
  | .contexts => contexts
  | .responses => responses
  | .units => units
  | .workers => workers
  | .inits => inits

theorem tilt_add (contexts responses units workers inits contexts' responses' units' workers'
    inits' : ℤ) :
    tilt contexts responses units workers inits +
        tilt contexts' responses' units' workers' inits' =
      tilt (contexts + contexts') (responses + responses') (units + units') (workers + workers')
        (inits + inits') := by
  funext scale
  cases scale <;> rfl

theorem neg_tilt (contexts responses units workers inits : ℤ) :
    -tilt contexts responses units workers inits =
      tilt (-contexts) (-responses) (-units) (-workers) (-inits) := by
  funext scale
  cases scale <;> rfl

theorem tilt_zero : tilt 0 0 0 0 0 = 0 := by
  funext scale
  cases scale <;> rfl

end Balance

open Balance

noncomputable def Machine.tilt (program : Program) (machine : Machine) : Tilt :=
  Balance.tilt
    (machine.tallies.contexts - machine.tallies.scheduled - machine.tallies.inCaller)
    (machine.tallies.responses - machine.tallies.inCaller)
    (machine.tallies.inCaller - (dispatchedUnits machine.history).length)
    (machine.tallies.contexts - workerCount (dispatchedUnits machine.history))
    (machine.tallies.inits - (program.initialized machine.gate).ncard)

theorem workerCount_append (units others : List Callable) :
    workerCount (units ++ others) = workerCount units + workerCount others := by
  simp [workerCount]

theorem dispatchedUnits_append (history earlier : List Happening) :
    dispatchedUnits (history ++ earlier) = dispatchedUnits history ++ dispatchedUnits earlier := by
  simp [dispatchedUnits]

theorem Tallies.plus_assoc (tallies more last : Tallies) :
    (tallies.plus more).plus last = tallies.plus (more.plus last) := by
  simp [Tallies.plus, Nat.add_assoc]

/-! ## Packages that have been initialized -/

namespace Program

variable {program : Program} {gate later : Gate} {name : String}

/-- A program has finitely many packages. -/
theorem initialized_finite (program : Program) (gate : Gate) :
    (program.initialized gate).Finite := by
  refine (List.finite_toSet program.packages.keys).subset ?_
  rintro name ⟨⟨package, found, _⟩, _⟩
  unfold Program.package at found
  split at found
  · next isPackage => exact Table.mem_keys_of_get? isPackage
  · cases found

theorem initialized_mono (kept : ∀ name outcome, gate.outcome? name = some outcome →
    later.outcome? name = some outcome) : program.initialized gate ⊆ program.initialized later :=
  fun name ⟨hasInit, outcome, settled⟩ => ⟨hasInit, outcome, kept name outcome settled⟩

/-- What is initialized depends on the stages of inits only. -/
theorem initialized_eq_of_stage (same : later.stage = gate.stage) :
    program.initialized later = program.initialized gate := by
  unfold initialized
  simp only [Gate.outcome?_eq_some_iff, same]

theorem initialized_of_unsettled {stage : Clearance.Stage}
    (changed : later.stage = Function.update gate.stage name stage)
    (unsettled : ∀ outcome, gate.stage name ≠ .settled outcome)
    (stillUnsettled : ∀ outcome, stage ≠ .settled outcome) :
    program.initialized later = program.initialized gate := by
  unfold initialized
  ext asked
  simp only [Set.mem_ofPred_eq, Gate.outcome?_eq_some_iff, changed]
  by_cases isName : asked = name
  · subst isName
    simp [unsettled, stillUnsettled]
  · rw [Function.update_of_ne isName]

/-- When the init of a package is settled, one more package is initialized, if the package has an init
unit. -/
theorem ncard_initialized_settle {outcome : Except Fault Unit}
    (changed : later.stage = Function.update gate.stage name (.settled outcome))
    (unsettled : ∀ outcome, gate.stage name ≠ .settled outcome) [Decidable (program.HasInit name)] :
    (program.initialized later).ncard =
      (program.initialized gate).ncard + if program.HasInit name then 1 else 0 := by
  have isNew : name ∉ program.initialized gate := by
    rintro ⟨_, its, settled⟩
    exact unsettled its ((Gate.outcome?_eq_some_iff _ _ _).mp settled)
  split
  · next hasInit =>
    have grown : program.initialized later = insert name (program.initialized gate) := by
      ext asked
      by_cases isName : asked = name
      · subst isName
        simp [initialized, hasInit, Gate.outcome?_eq_some_iff, changed]
      · simp [initialized, Gate.outcome?_eq_some_iff, changed, isName]
    rw [grown, Set.ncard_insert_of_notMem isNew (program.initialized_finite gate)]
  · next noInit =>
    have same : program.initialized later = program.initialized gate := by
      ext asked
      by_cases isName : asked = name
      · subst isName
        simp [initialized, noInit]
      · simp [initialized, Gate.outcome?_eq_some_iff, changed, isName]
    rw [same, Nat.add_zero]

end Program

/-! ## Shares in the tilt -/

/-- Since a machine was like `base`, counts and history have only grown, no init that had been settled is
unsettled, and the tilt that has come is the sum of what the threads have contributed. -/
structure Balance.Shared (program : Program) (base machine : Machine) (shares : ThreadId → Tilt) :
    Prop where
  tallies : ∃ spent, machine.tallies = base.tallies.plus spent
  history : base.history <:+ machine.history
  settled : program.initialized base.gate ⊆ program.initialized machine.gate
  tilted : ∃ threads : Finset ThreadId, (∀ thread, thread ∉ threads → shares thread = 0) ∧
    machine.tilt program = base.tilt program + ∑ thread ∈ threads, shares thread

namespace Balance.Shared

variable {program : Program} {base machine later : Machine} {shares : ThreadId → Tilt}
  {thread : ThreadId} {change : Tilt}

theorem start (machine : Machine) : Shared program machine machine fun _ => 0 where
  tallies := ⟨{}, rfl⟩
  history := List.suffix_refl _
  settled := Set.Subset.refl _
  tilted := ⟨∅, fun _ _ => rfl, by simp⟩

theorem add (shared : Shared program base machine shares)
    (tallies : ∃ spent, later.tallies = machine.tallies.plus spent)
    (history : machine.history <:+ later.history)
    (settled : program.initialized machine.gate ⊆ program.initialized later.gate)
    (tilted : later.tilt program = machine.tilt program + change) :
    Shared program base later (Function.update shares thread (shares thread + change)) := by
  refine ⟨?_, shared.history.trans history, shared.settled.trans settled, ?_⟩
  · obtain ⟨earlier, isEarlier⟩ := shared.tallies
    obtain ⟨spent, isSpent⟩ := tallies
    exact ⟨earlier.plus spent, by rw [isSpent, isEarlier, Tallies.plus_assoc]⟩
  · obtain ⟨threads, others, isTilt⟩ := shared.tilted
    have isMember : thread ∈ insert thread threads := Finset.mem_insert_self ..
    have sameSum : ∑ other ∈ threads, shares other = ∑ other ∈ insert thread threads, shares other := by
      refine Finset.sum_subset (Finset.subset_insert ..) fun other _ isOutside => others other isOutside
    refine ⟨insert thread threads, fun other isOutside => ?_, ?_⟩
    · obtain ⟨different, outside⟩ := not_or.mp (mt Finset.mem_insert.mpr isOutside)
      rw [Function.update_of_ne different]
      exact others other outside
    · rw [Finset.sum_update_of_mem isMember, tilted, isTilt, sameSum,
        ← Finset.add_sum_erase _ _ isMember, Finset.sdiff_singleton_eq_erase]
      abel

/-- A step that leaves counts, history and the stages of inits alone. -/
theorem of_same (shared : Shared program base machine shares)
    (tallies : later.tallies = machine.tallies) (history : later.history = machine.history)
    (stage : later.gate.stage = machine.gate.stage) : Shared program base later shares := by
  have initialized := @Program.initialized_eq_of_stage program _ _ stage
  have sameTilt : later.tilt program = machine.tilt program := by
    unfold Machine.tilt
    rw [tallies, history, initialized]
  exact
    { tallies := tallies ▸ shared.tallies
      history := history ▸ shared.history
      settled := initialized ▸ shared.settled
      tilted := sameTilt ▸ shared.tilted }

/-- When no thread has a share in any tilt, the counts balance each other. -/
theorem balances (shared : Shared program base machine shares) (level : ∀ thread, shares thread = 0) :
    ∃ spent happened, program.Balances base machine spent happened := by
  obtain ⟨spent, isSpent⟩ := shared.tallies
  obtain ⟨happened, isHistory⟩ := shared.history
  obtain ⟨threads, _, isTilt⟩ := shared.tilted
  rw [Finset.sum_eq_zero fun thread _ => level thread, add_zero] at isTilt
  have counted := fun scale => congrFun isTilt scale
  have settled := Set.ncard_sdiff_add_ncard_of_subset shared.settled
    (program.initialized_finite machine.gate)
  have contexts := counted .contexts
  have responses := counted .responses
  have units := counted .units
  have workers := counted .workers
  have inits := counted .inits
  simp only [Machine.tilt, tilt, isSpent, ← isHistory, dispatchedUnits_append, workerCount_append,
    List.length_append, Tallies.plus] at contexts responses units workers inits
  push_cast at contexts responses units workers inits
  exact ⟨spent, happened, isSpent, isHistory.symm, by omega, by omega, by omega, by omega, by omega⟩

end Balance.Shared

end WorkerMachine
