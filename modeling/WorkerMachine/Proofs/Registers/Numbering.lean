import WorkerMachine.Proofs.Registers.Layouts
/-!
# The numbering of positions

A layout numbers the positions of a signature and the slots of its banks one to one.  Which slot a
position gets depends on the positions before it only, so a signature that is made longer keeps its
slots.
-/

namespace WorkerMachine

namespace Layout

variable {used final : BankSizes} {types : List DataType} {slots : List Slot}

/-! ## Refused types -/

def firstWithoutValues? (types : List DataType) : Option DataType :=
  types.find? fun type => type = .void ∨ type = .null

/-- Types that cannot all be placed are refused in the name of the first one without values. -/
theorem exists_refused_of_assign {fault : Fault} (failed : assign used types = .error fault) :
    ∃ refused, firstWithoutValues? types = some refused ∧
      fault = .unsupportedType refused.name := by
  induction types generalizing used with
  | nil => cases failed
  | cons type rest inductionHypothesis =>
      simp only [assign] at failed
      split at failed
      · next unbanked =>
        cases failed
        have withoutValues := type.bank?_eq_none_iff.mp unbanked
        exact ⟨type, List.find?_cons_of_pos (by simpa using withoutValues), rfl⟩
      · next bank banked =>
        have hasValues : ¬ (type = .void ∨ type = .null) := by
          rw [← type.bank?_eq_none_iff, banked]
          simp
        split at failed
        · next restFault restFailed =>
          cases failed
          rcases inductionHypothesis restFailed with ⟨refused, found, named⟩
          refine ⟨refused, ?_, named⟩
          rw [firstWithoutValues?, List.find?_cons_of_neg (by simpa using hasValues)]
          exact found
        · cases failed

theorem bank?_ne_none_of_assign (assigned : assign used types = .ok (slots, final))
    {type : DataType} (member : type ∈ types) : type.bank? ≠ none := by
  intro unbanked
  have amongBanks : none ∈ types.map DataType.bank? := by
    rw [← unbanked]
    exact List.mem_map_of_mem member
  rw [banks_of_assign assigned] at amongBanks
  simp at amongBanks

theorem ofTypes_eq_error_iff (types : List DataType) (fault : Fault) :
    ofTypes types = .error fault ↔
      ∃ refused, firstWithoutValues? types = some refused ∧
        fault = .unsupportedType refused.name := by
  constructor
  · intro failed
    unfold ofTypes at failed
    split at failed
    · next assignFailed =>
      cases failed
      exact exists_refused_of_assign assignFailed
    · cases failed
  · intro ⟨refused, found, named⟩
    have withoutValues : refused = .void ∨ refused = .null := by simpa using List.find?_some found
    have unbanked := refused.bank?_eq_none_iff.mpr withoutValues
    cases assigned : assign .zero types with
    | ok placed =>
        exact absurd unbanked (bank?_ne_none_of_assign assigned (List.mem_of_find?_eq_some found))
    | error actual =>
        rcases exists_refused_of_assign assigned with ⟨other, otherFound, otherNamed⟩
        rw [found] at otherFound
        cases otherFound
        simp only [ofTypes, assigned, named, otherNamed]

/-! ## Placed types -/

/-- Within a bank the slots are numbered in the order of the positions. -/
theorem increasing_of_assign (assigned : assign used types = .ok (slots, final)) :
    slots.Pairwise fun earlier later =>
      earlier.bank = later.bank → earlier.index < later.index := by
  induction types generalizing used slots with
  | nil =>
      cases assigned
      exact .nil
  | cons type rest inductionHypothesis =>
      rcases exists_of_assign_cons assigned with ⟨own, others, _, rfl, restAssigned⟩
      refine List.pairwise_cons.mpr ⟨?_, inductionHypothesis restAssigned⟩
      intro later member sameBank
      have above := (range_of_assign restAssigned later member).1
      -- The other slots are given out from the sizes grown by this one.
      rw [BankSizes.get_grow, if_pos sameBank, ← sameBank] at above
      exact above

theorem exists_of_assign_append {first second : List DataType}
    (assigned : assign used (first ++ second) = .ok (slots, final)) :
    ∃ firstSlots middle secondSlots, assign used first = .ok (firstSlots, middle) ∧
      assign middle second = .ok (secondSlots, final) ∧ slots = firstSlots ++ secondSlots := by
  induction first generalizing used slots with
  | nil => exact ⟨[], used, slots, rfl, assigned, rfl⟩
  | cons type rest inductionHypothesis =>
      rcases exists_of_assign_cons assigned with ⟨own, others, banked, rfl, restAssigned⟩
      rcases inductionHypothesis restAssigned with
        ⟨restSlots, middle, secondSlots, firstAssigned, secondAssigned, rfl⟩
      exact ⟨_, middle, secondSlots, assign_cons banked firstAssigned, secondAssigned, rfl⟩

/-- The slots of a signature come first among those of a longer one. -/
theorem slots_prefix_of_append {first second : List DataType} {layout longer : Layout}
    (laidOut : ofTypes first = .ok layout) (longerLaidOut : ofTypes (first ++ second) = .ok longer) :
    layout.slots <+: longer.slots := by
  rcases exists_of_assign_append (assign_of_ofTypes longerLaidOut) with
    ⟨firstSlots, middle, secondSlots, firstAssigned, _, isAppend⟩
  rw [assign_of_ofTypes laidOut] at firstAssigned
  cases firstAssigned
  exact ⟨secondSlots, isAppend.symm⟩

/-- The positions of a signature and the slots of the banks of a layout, one to one and in order. -/
structure Numbers (layout : Layout) (types : List DataType) : Prop where
  /-- Every position has a slot in the bank of its type. -/
  banked : types.map DataType.bank? = layout.slots.map fun slot => some slot.bank
  nodup : layout.slots.Nodup
  exhausts : ∀ slot, slot ∈ layout.slots ↔ slot.index < layout.sizes.get slot.bank
  increasing : layout.slots.Pairwise fun earlier later =>
    earlier.bank = later.bank → earlier.index < later.index

theorem numbers_of_ofTypes {layout : Layout} (laidOut : ofTypes types = .ok layout) :
    layout.Numbers types where
  banked := by
    rw [banks_of_assign (assign_of_ofTypes laidOut), List.map_map]
    rfl
  nodup := (sound_of_ofTypes laidOut).nodup
  exhausts := mem_slots_iff laidOut
  increasing := increasing_of_assign (assign_of_ofTypes laidOut)

end Layout

/-- A signature is refused exactly if one of its types is `void` or `null`, in the name of the first such
type.  Otherwise its positions are numbered one to one with the slots of the banks, and keep their slots
whatever types are put behind. -/
theorem layout_numbers_positions (types : List DataType) :
    (∀ fault, Layout.ofTypes types = .error fault ↔
      ∃ refused, Layout.firstWithoutValues? types = some refused ∧
        fault = .unsupportedType refused.name) ∧
    ∀ layout, Layout.ofTypes types = .ok layout →
      layout.Numbers types ∧
        ∀ more longer, Layout.ofTypes (types ++ more) = .ok longer → layout.slots <+: longer.slots :=
  ⟨Layout.ofTypes_eq_error_iff types, fun _ laidOut =>
    ⟨Layout.numbers_of_ofTypes laidOut, fun _ _ => Layout.slots_prefix_of_append laidOut⟩⟩

/-- Arrays and records share the bank of references, and a boolean does not take an index from the
integers around it. -/
theorem layout_numbers_positions_of_mixed :
    let types : List DataType := [.int, .array .int, .boolean, .int, .record "point"]
    let slots : List Slot := [⟨.int, 0⟩, ⟨.reference, 0⟩, ⟨.boolean, 0⟩, ⟨.int, 1⟩, ⟨.reference, 1⟩]
    let layout : Layout := ⟨types, slots, { longs := 2, ints := 1, refs := 2 }⟩
    let longer : Layout := ⟨types ++ [.xml], slots ++ [⟨.reference, 2⟩],
      { longs := 2, ints := 1, refs := 3 }⟩
    layout.Numbers types ∧ layout.slots <+: longer.slots ∧
      Layout.ofTypes (.int :: .void :: .null :: types) = .error (.unsupportedType "void") := by
  intro types slots layout longer
  have laidOut : Layout.ofTypes types = .ok layout := rfl
  have longerLaidOut : Layout.ofTypes (types ++ [.xml]) = .ok longer := rfl
  have numbered := (layout_numbers_positions types).2 layout laidOut
  refine ⟨numbered.1, numbered.2 [.xml] longer longerLaidOut, ?_⟩
  exact ((layout_numbers_positions (.int :: .void :: .null :: types)).1 _).mpr ⟨.void, rfl, rfl⟩

end WorkerMachine
