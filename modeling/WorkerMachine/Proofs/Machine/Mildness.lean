import WorkerMachine.Proofs.Invocation.Minding
/-!
# Mild steps

Scheduling, waiting, gathering results and delivering them are mild: they leave global memory, the
gate, the constants that wait and the history alone, and what they do to contexts only lets the
contexts grow older.  A context that has begun to run is never again one that has not, and no name is
given out twice.  A constant that has a value keeps it.
-/

namespace WorkerMachine

/-! ## Contexts that grow older -/

namespace Arena

variable {arena before after last : Arena} {id : ContextId}

/-- A live context has not begun to run. -/
def Unbegun (arena : Arena) (id : ContextId) : Prop :=
  arena.state? id = some .created ∨ arena.state? id = some .runnable

/-- The names of live contexts have been given out. -/
def Bounded (arena : Arena) : Prop :=
  ∀ id, arena.state? id ≠ none → id < arena.nextId

/-- The contexts of an arena grow older, and new ones come. -/
structure Ages (before after : Arena) : Prop where
  nextId : before.nextId ≤ after.nextId
  bounded : before.Bounded → after.Bounded
  unbegun : ∀ id, after.Unbegun id → before.nextId ≤ id ∨ before.Unbegun id

theorem Ages.refl (arena : Arena) : arena.Ages arena :=
  ⟨Nat.le_refl _, id, fun _ => .inr⟩

theorem Ages.trans (first : before.Ages after) (second : after.Ages last) : before.Ages last where
  nextId := Nat.le_trans first.nextId second.nextId
  bounded := fun bounded => second.bounded (first.bounded bounded)
  unbegun := by
    intro id unbegun
    obtain isNew | unbegun := second.unbegun id unbegun
    · exact .inl (Nat.le_trans first.nextId isNew)
    · exact first.unbegun id unbegun

/-- Once a context has begun, it will not be one that has not begun. -/
theorem Ages.begun (ages : before.Ages after) (known : id < before.nextId)
    (begun : ¬before.Unbegun id) : id < after.nextId ∧ ¬after.Unbegun id := by
  refine ⟨Nat.lt_of_lt_of_le known ages.nextId, fun unbegun => ?_⟩
  obtain isNew | wasUnbegun := ages.unbegun id unbegun
  · exact Nat.not_lt.mpr isNew known
  · exact begun wasUnbegun

/-- A change of one context that lets it begin, or leaves it as it was. -/
theorem AltersOnly.ages (alters : arena.AltersOnly id after)
    (live : after.state? id ≠ none → arena.state? id ≠ none)
    (older : after.Unbegun id → arena.Unbegun id) : arena.Ages after where
  nextId := alters.nextId.ge
  bounded := by
    intro bounded asked isLive
    rw [alters.nextId]
    apply bounded
    by_cases same : asked = id
    · subst same
      exact live isLive
    · rwa [alters.others asked same] at isLive
  unbegun := by
    intro asked unbegun
    by_cases same : asked = id
    · subst same
      exact .inr (older unbegun)
    · unfold Unbegun at unbegun
      rw [alters.others asked same] at unbegun
      exact .inr unbegun

theorem register_ages (arena : Arena) (record : ContextRecord) :
    arena.Ages (arena.register record).2 where
  nextId := Nat.le_succ _
  bounded := by
    intro bounded id isLive
    unfold state? at isLive
    rw [record?_register] at isLive
    split at isLive
    · next same =>
      rw [← same]
      exact Nat.lt_succ_self _
    · exact Nat.lt_succ_of_lt (bounded id isLive)
  unbegun := by
    intro id unbegun
    unfold Unbegun state? at unbegun
    rw [record?_register] at unbegun
    split at unbegun
    · next same => exact .inl same.le
    · exact .inr unbegun

theorem transition_ages (arena : Arena) (id : ContextId) (next : ContextState) :
    arena.Ages (arena.transition id next).2 := by
  cases found : arena.state? id with
  | none =>
    have missing : arena.record? id = none := Option.map_eq_none_iff.mp found
    unfold transition
    rw [missing]
    exact Ages.refl arena
  | some state =>
    by_cases allowed : state.canMoveTo next = true
    · have moved := (state?_transition found allowed).2
      apply (transition_altersOnly arena id next).ages
      · intro _
        rw [found]
        exact Option.some_ne_none state
      · -- Only a context that has been created becomes one that has not begun.
        unfold Unbegun
        rw [moved, found]
        rintro (same | same) <;> cases same <;> cases state <;> simp [ContextState.canMoveTo] at allowed ⊢
    · obtain ⟨record, isRecord, rfl⟩ := Option.map_eq_some_iff.mp found
      unfold transition
      simp only [isRecord, allowed]
      exact Ages.refl arena

theorem beginWait_ages (arena : Arena) (id : ContextId) : arena.Ages (arena.beginWait id).2 := by
  unfold beginWait
  split
  · exact Ages.refl arena
  · exact transition_ages arena id .waiting

theorem suspend_ages (arena : Arena) (id : ContextId) : arena.Ages (arena.suspend id).2 := by
  unfold suspend
  split
  · exact Ages.refl arena
  · exact Ages.refl arena
  · exact beginWait_ages arena id

theorem resume_ages (arena : Arena) (id : ContextId) : arena.Ages (arena.resume id) := by
  unfold resume
  split
  · exact transition_ages arena id .running
  · exact Ages.refl arena

theorem finish_ages (arena : Arena) (id : ContextId) (last : ContextState) :
    arena.Ages (arena.finish id last) :=
  (resume_ages arena id).trans (transition_ages _ id last)

theorem release_ages (arena : Arena) (id : ContextId) : arena.Ages (arena.release id) := by
  have gone : (arena.release id).state? id = none := by
    unfold state?
    rw [record?_release, if_pos rfl]
    rfl
  apply (release_altersOnly arena id).ages
  · exact fun isLive => absurd gone isLive
  · unfold Unbegun
    rw [gone]
    rintro (never | never) <;> cases never

end Arena

/-! ## Mild steps -/

namespace Machine

variable {machine later : Machine} {Answer : Type}

/-- Every constant that has a value keeps it. -/
def KeepsConstants (before after : Machine) : Prop :=
  ∀ cell value, before.resolved.get? cell = some value → after.resolved.get? cell = some value

theorem KeepsConstants.refl (machine : Machine) : machine.KeepsConstants machine :=
  fun _ _ found => found

theorem KeepsConstants.trans {last : Machine} (first : machine.KeepsConstants later)
    (second : later.KeepsConstants last) : machine.KeepsConstants last :=
  fun cell value found => second cell value (first cell value found)

theorem keepsConstants_of_same (resolved : later.resolved = machine.resolved) :
    machine.KeepsConstants later := by
  intro cell value found
  rw [resolved]
  exact found

/-- A constant gets a value only while it has none. -/
theorem keepsConstants_resolveConstant (machine : Machine) (cell : Nat) (value : Constant) :
    machine.KeepsConstants (machine.resolveConstant cell value) := by
  intro asked held found
  unfold resolveConstant Table.contains
  split
  · exact found
  · next isFresh =>
    dsimp only
    rw [Table.get?_insert]
    split
    · next same =>
      rw [same, found] at isFresh
      exact absurd rfl isFresh
    · exact found

/-- A step that leaves global memory, the gate, the constants that wait and the history alone, by
which contexts only grow older, and which keeps the values of constants. -/
structure Mild (before after : Machine) : Prop where
  globals : after.globals = before.globals
  gate : after.gate = before.gate
  pending : after.pending = before.pending
  history : after.history = before.history
  arenas : ∀ key, (before.arena key).Ages (after.arena key)
  constants : before.KeepsConstants after

theorem Mild.trans {last : Machine} (first : machine.Mild later) (second : later.Mild last) :
    machine.Mild last where
  globals := second.globals.trans first.globals
  gate := second.gate.trans first.gate
  pending := second.pending.trans first.pending
  history := second.history.trans first.history
  arenas := fun key => (first.arenas key).trans (second.arenas key)
  constants := first.constants.trans second.constants

/-- A step that leaves the contexts and the values of constants alone as well. -/
theorem mild_of_same (globals : later.globals = machine.globals) (gate : later.gate = machine.gate)
    (pending : later.pending = machine.pending) (history : later.history = machine.history)
    (arenas : later.arenas = machine.arenas) (resolved : later.resolved = machine.resolved) :
    machine.Mild later := by
  refine ⟨globals, gate, pending, history, fun key => ?_, keepsConstants_of_same resolved⟩
  unfold arena
  rw [arenas]
  exact Arena.Ages.refl _

theorem mild_setArena (key : ArenaKey) {arena : Arena} (ages : (machine.arena key).Ages arena) :
    machine.Mild (machine.setArena key arena) := by
  refine ⟨rfl, rfl, rfl, rfl, fun asked => ?_, keepsConstants_of_same rfl⟩
  rw [arena_setArena]
  split
  · next same =>
    rw [← same]
    exact ages
  · exact Arena.Ages.refl _

theorem mild_inArena (machine : Machine) (key : ArenaKey) {operation : Arena → Answer × Arena}
    (ages : ∀ arena : Arena, arena.Ages (operation arena).2) :
    machine.Mild (machine.inArena key operation).2 :=
  mild_setArena key (ages _)

theorem mild_alterArena (machine : Machine) (key : ArenaKey) {change : Arena → Arena}
    (ages : ∀ arena : Arena, arena.Ages (change arena)) :
    machine.Mild (machine.alterArena key change) :=
  mild_setArena key (ages _)

theorem mild_resolveConstants (values : List (Nat × Constant)) (machine : Machine) :
    machine.Mild (machine.resolveConstants values) := by
  unfold Machine.resolveConstants
  induction values generalizing machine with
  | nil => exact mild_of_same rfl rfl rfl rfl rfl rfl
  | cons value rest inductionHypothesis =>
    have one : machine.Mild (machine.resolveConstant value.1 value.2) := by
      have keeps := machine.keepsConstants_resolveConstant value.1 value.2
      unfold resolveConstant at keeps ⊢
      split at keeps
      · next held =>
        rw [if_pos held]
        exact mild_of_same rfl rfl rfl rfl rfl rfl
      · next fresh =>
        rw [if_neg fresh]
        exact ⟨rfl, rfl, rfl, rfl, fun key => Arena.Ages.refl _, keeps⟩
    exact one.trans (inductionHypothesis _)

end Machine

end WorkerMachine
