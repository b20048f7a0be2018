import Mathlib.Data.List.Nodup
import Mathlib.Data.List.Perm.Subperm
import Mathlib.Logic.Function.Basic
/-!
# Things in the hands of threads

A number of things with keys of their own is divided among threads, each of which holds a list of
them, the one taken up last in front, and a common pile.  No key is held twice.  What a thread does
with its own hand and with the pile concerns no other thread.
-/

namespace WorkerMachine.Settling

variable {Thread Thing Key : Type} [DecidableEq Thread]

/-- The keys on the pile and in all hands are different from each other. -/
structure Apart (key : Thing → Key) (pile : List Thing) (hands : Thread → List Thing) : Prop where
  once : ∀ thread, ((hands thread ++ pile).map key).Nodup
  others : ∀ thread other, thread ≠ other → ∀ thing ∈ hands thread, ∀ second ∈ hands other,
    key thing ≠ key second

namespace Apart

variable {key : Thing → Key} {pile later hand rest : List Thing} {hands : Thread → List Thing}
  {thread : Thread} {thing new : Thing}

/-- A thread may hold other things and leave other things on the pile, as long as their keys are old
ones of the hand or the pile, or are new. -/
theorem regroup (apart : Apart key pile hands) (once : ((hand ++ later).map key).Nodup)
    (old : ∀ thing ∈ hand ++ later,
      (∃ earlier ∈ hands thread ++ pile, key earlier = key thing) ∨
        ∀ other, other ≠ thread → ∀ held ∈ hands other, key held ≠ key thing) :
    Apart key later (Function.update hands thread hand) := by
  -- A key of the new hand or the new pile is in no other hand.
  have foreign : ∀ thing ∈ hand ++ later, ∀ other, other ≠ thread → ∀ held ∈ hands other,
      key held ≠ key thing := by
    intro thing member other different held isHeld same
    obtain ⟨earlier, wasThere, sameKey⟩ | isNew := old thing member
    · obtain inHand | onPile := List.mem_append.mp wasThere
      · exact apart.others other thread different held isHeld earlier inHand
          (same.trans sameKey.symm)
      · have distinct := apart.once other
        rw [List.map_append, List.nodup_append] at distinct
        exact distinct.2.2 _ (List.mem_map_of_mem isHeld) _ (List.mem_map_of_mem onPile)
          (same.trans sameKey.symm)
    · exact isNew other different held isHeld same
  constructor
  · intro asked
    by_cases same : asked = thread
    · subst same
      simpa using once
    · rw [Function.update_of_ne same, List.map_append, List.nodup_append]
      have distinct := apart.once asked
      rw [List.map_append, List.nodup_append] at distinct once
      apply And.intro distinct.1
      apply And.intro once.2.1
      intro first inHand second onPile equal
      obtain ⟨held, isHeld, rfl⟩ := List.mem_map.mp inHand
      obtain ⟨thing, isLater, rfl⟩ := List.mem_map.mp onPile
      exact foreign thing (List.mem_append_right _ isLater) asked same held isHeld equal
  · intro first second different thing inFirst held inSecond
    by_cases isFirst : first = thread
    · subst isFirst
      rw [Function.update_self] at inFirst
      rw [Function.update_of_ne (Ne.symm different)] at inSecond
      exact (foreign thing (List.mem_append_left _ inFirst) second (Ne.symm different) held
        inSecond).symm
    · rw [Function.update_of_ne isFirst] at inFirst
      by_cases isSecond : second = thread
      · subst isSecond
        rw [Function.update_self] at inSecond
        exact foreign held (List.mem_append_left _ inSecond) first isFirst thing inFirst
      · rw [Function.update_of_ne isSecond] at inSecond
        exact apart.others first second different thing inFirst held inSecond

/-- A thread keeps the keys of its hand, and the pile stays as it is. -/
theorem exchange (apart : Apart key pile hands)
    (sameKeys : hand.map key = (hands thread).map key) :
    Apart key pile (Function.update hands thread hand) := by
  apply apart.regroup
  · rw [List.map_append, sameKeys, ← List.map_append]
    exact apart.once thread
  · intro thing member
    left
    obtain inHand | onPile := List.mem_append.mp member
    · have isKey : key thing ∈ (hands thread).map key := sameKeys ▸ List.mem_map_of_mem inHand
      obtain ⟨earlier, wasThere, sameKey⟩ := List.mem_map.mp isKey
      exact ⟨earlier, List.mem_append_left _ wasThere, sameKey⟩
    · exact ⟨thing, List.mem_append_right _ onPile, rfl⟩

theorem shift (apart : Apart key pile hands)
    (perm : (hand ++ later).Perm (hands thread ++ pile)) :
    Apart key later (Function.update hands thread hand) := by
  apply apart.regroup
  · exact (perm.map key).nodup_iff.mpr (apart.once thread)
  · intro thing member
    exact .inl ⟨thing, perm.subset member, rfl⟩

theorem drop (apart : Apart key pile hands) (holding : hands thread = thing :: rest) :
    Apart key pile (Function.update hands thread rest) := by
  have once := apart.once thread
  rw [holding, List.cons_append, List.map_cons, List.nodup_cons] at once
  apply apart.regroup once.2
  intro other member
  left
  rw [holding]
  exact ⟨other, List.mem_cons_of_mem _ member, rfl⟩

theorem create (apart : Apart key pile hands)
    (isNew : ∀ other, ∀ held ∈ hands other, key held ≠ key new)
    (notPiled : ∀ held ∈ pile, key held ≠ key new) :
    Apart key pile (Function.update hands thread (new :: hands thread)) := by
  apply apart.regroup
  · rw [List.cons_append, List.map_cons, List.nodup_cons]
    apply And.intro _ (apart.once thread)
    intro member
    obtain ⟨held, isHeld, same⟩ := List.mem_map.mp member
    obtain inHand | onPile := List.mem_append.mp isHeld
    · exact isNew thread held inHand same
    · exact notPiled held onPile same
  · intro thing member
    obtain rfl | isOld := List.mem_cons.mp member
    · exact .inr fun other _ held isHeld => isNew other held isHeld
    · exact .inl ⟨thing, isOld, rfl⟩

omit [DecidableEq Thread] in
theorem ne_of_mem_pile (apart : Apart key pile hands) (member : thing ∈ hands thread)
    {piled : Thing} (isPiled : piled ∈ pile) : key piled ≠ key thing := by
  intro same
  have once := apart.once thread
  rw [List.map_append, List.nodup_append] at once
  exact once.2.2 _ (List.mem_map_of_mem member) _ (List.mem_map_of_mem isPiled) same.symm

theorem ne_of_mem {front : List Thing} (apart : Apart key pile hands)
    (holding : hands thread = front ++ rest) (inFront : thing ∈ front) {other : Thread}
    {held : Thing} (member : held ∈ Function.update hands thread rest other) :
    key held ≠ key thing := by
  by_cases same : other = thread
  · subst same
    rw [Function.update_self] at member
    have once := (apart.once other).sublist ((List.sublist_append_left _ pile).map key)
    rw [holding, List.map_append, List.nodup_append] at once
    exact (once.2.2 _ (List.mem_map_of_mem inFront) _ (List.mem_map_of_mem member)).symm
  · rw [Function.update_of_ne same] at member
    apply apart.others other thread same held member thing
    rw [holding]
    exact List.mem_append_left _ inFront

end Apart

end WorkerMachine.Settling
