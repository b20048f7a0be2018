import WorkerMachine.Context.Arena
import Mathlib.Data.List.Chain
/-!
# Lines of ancestors

The line of a context is climbed from parent to parent until a context has no parent or has no
record.  Nothing bounds the climb but the order of the names: where every parent has a smaller name
than its children, it ends, and it passes live contexts with smaller and smaller names.
-/

namespace WorkerMachine

/-- Climbing from a context, if there is one, passes the contexts of a list and ends. -/
inductive Arena.Climb (arena : Arena) : Option ContextId → List ContextId → Prop
  | beyondRoot : arena.Climb none []
  | atReleased {id : ContextId} : arena.record? id = none → arena.Climb (some id) []
  | past {id : ContextId} {record : ContextRecord} {above : Option ContextId}
      {rest : List ContextId} :
      arena.record? id = some record → record.parent = above → arena.Climb above rest →
      arena.Climb (some id) (id :: rest)

/-- Every record has a name that was given out, and every parent has a smaller name than its
children. -/
structure Arena.ParentsFirst (arena : Arena) : Prop where
  named : ∀ {id record}, arena.record? id = some record → 0 < id ∧ id < arena.nextId
  older : ∀ {id record parent}, arena.record? id = some record → record.parent = some parent →
    parent < id

namespace Arena

variable {arena : Arena} {id : ContextId} {cursor : Option ContextId} {chain : List ContextId}

/-! ## What a climb passes -/

theorem Climb.unique {other : List ContextId} (climb : arena.Climb cursor chain)
    (again : arena.Climb cursor other) : chain = other := by
  induction climb generalizing other with
  | beyondRoot =>
    cases again
    rfl
  | atReleased absent =>
    cases again with
    | atReleased _ => rfl
    | past found _ _ => simp [absent] at found
  | past found ofParent _ inductionHypothesis =>
    cases again with
    | atReleased absent => simp [absent] at found
    | past foundAgain ofParentAgain restAgain =>
      have sameRecord := Option.some.inj (found.symm.trans foundAgain)
      subst sameRecord
      have sameParent := ofParent.symm.trans ofParentAgain
      subst sameParent
      rw [inductionHypothesis restAgain]

theorem Climb.live (climb : arena.Climb cursor chain) :
    ∀ passed ∈ chain, (arena.record? passed).isSome := by
  induction climb with
  | beyondRoot => simp
  | atReleased _ => simp
  | past found _ _ inductionHypothesis =>
    intro passed member
    cases member with
    | head => simp [found]
    | tail _ later => exact inductionHypothesis passed later

theorem Climb.head? (climb : arena.Climb (some id) chain) :
    chain.head? = if (arena.record? id).isSome then some id else none := by
  cases climb with
  | atReleased absent => simp [absent]
  | past found _ _ => simp [found]

/-- A climb ends at a context without a parent, or at one whose parent has been released. -/
theorem Climb.parent?_getLast {last : ContextId} (climb : arena.Climb cursor chain)
    (ends : chain.getLast? = some last) :
    arena.parent? last = none ∨
      ∃ parent, arena.parent? last = some parent ∧ arena.record? parent = none := by
  induction climb with
  | beyondRoot => simp at ends
  | atReleased _ => simp at ends
  | @past id _ above _ found ofParent climbAbove inductionHypothesis =>
    have parentOf : arena.parent? id = above := by simp [parent?, found, ofParent]
    cases climbAbove with
    | beyondRoot =>
      simp only [List.getLast?_singleton, Option.some.injEq] at ends
      subst ends
      left
      exact parentOf
    | @atReleased parent absent =>
      simp only [List.getLast?_singleton, Option.some.injEq] at ends
      subst ends
      right
      exact ⟨parent, parentOf, absent⟩
    | past _ _ _ =>
      apply inductionHypothesis
      simpa using ends

theorem Climb.isChain_parent (climb : arena.Climb cursor chain) :
    chain.IsChain fun child parent => arena.parent? child = some parent := by
  induction climb with
  | beyondRoot => simp
  | atReleased _ => simp
  | @past id _ above _ found ofParent climbAbove inductionHypothesis =>
    have parentOf : arena.parent? id = above := by simp [parent?, found, ofParent]
    cases climbAbove with
    | beyondRoot => simp
    | atReleased _ => simp
    | past _ _ _ => exact inductionHypothesis.cons_cons parentOf

/-! ## The climb ends -/

theorem ParentsFirst.parent?_lt (ordered : arena.ParentsFirst) {parent : ContextId}
    (found : arena.parent? id = some parent) : parent < id := by
  obtain ⟨record, known, ofParent⟩ := Option.bind_eq_some_iff.mp found
  exact ordered.older known ofParent

/-- A climb passes smaller and smaller names. -/
theorem Climb.pairwise_gt (climb : arena.Climb cursor chain) (ordered : arena.ParentsFirst) :
    chain.Pairwise (· > ·) := by
  apply List.isChain_iff_pairwise.mp
  exact climb.isChain_parent.imp fun _ _ found => ordered.parent?_lt found

/-- The bounded climb is the whole climb, as soon as the bound is above the name. -/
theorem ParentsFirst.climb_lineage (ordered : arena.ParentsFirst) (bound : Nat)
    (above : id < bound) : arena.Climb (some id) (arena.lineage bound id) := by
  induction bound generalizing id with
  | zero => exact absurd above (Nat.not_lt_zero id)
  | succ bound inductionHypothesis =>
    cases found : arena.record? id with
    | none =>
      simp only [lineage, found]
      exact .atReleased found
    | some record =>
      cases ofParent : record.parent with
      | none =>
        simp only [lineage, found, ofParent]
        exact .past found ofParent .beyondRoot
      | some parent =>
        simp only [lineage, found, ofParent]
        apply Climb.past found ofParent
        apply inductionHypothesis
        exact Nat.lt_of_lt_of_le (ordered.older found ofParent) (Nat.le_of_lt_succ above)

theorem ParentsFirst.climb_ancestry (ordered : arena.ParentsFirst) (id : ContextId) :
    arena.Climb (some id) (arena.ancestry id) :=
  ordered.climb_lineage (id + 1) (Nat.lt_succ_self id)

end Arena

end WorkerMachine
