import Mathlib.Order.Nat
import WorkerMachine.Proofs.Registers.Boxing
/-!
# Lowering and raising

Values that are lowered into the slots of a layout are raised from there again, and a file of the
layout's own sizes is rebuilt from the values that are raised from it.  Values are lowered exactly when
each is of the bank that is declared for its position; otherwise lowering breaks off at the first one
that is not, and what stands before it has been written.
-/

namespace WorkerMachine

/-! ## The first argument of the wrong kind -/

/-- The first position in which an argument is not of the bank of its parameter. -/
structure Layout.FirstMismatch (layout : Layout) (arguments : List Value) (position : Nat)
    (declared actual : Bank) : Prop where
  declares : layout.banks[position]? = some declared
  finds : (arguments.map Value.bank)[position]? = some actual
  differs : declared ≠ actual
  agrees : ∀ earlier < position, layout.banks[earlier]? = (arguments.map Value.bank)[earlier]?

namespace Layout

variable {layout : Layout} {arguments : List Value} {position : Nat} {declared actual : Bank}

/-- As many arguments as there are parameters are of the banks of the parameters, or there is a first
one that is not. -/
theorem exists_firstMismatch (sameLength : layout.length = arguments.length)
    (differ : layout.banks ≠ arguments.map Value.bank) :
    ∃ position declared actual, layout.FirstMismatch arguments position declared actual := by
  have somewhere : ∃ position : Nat,
      layout.banks[position]? ≠ (arguments.map Value.bank)[position]? := by
    by_contra nowhere
    exact differ (List.ext_getElem? fun position => not_not.mp (not_exists.mp nowhere position))
  have sameBanks : layout.banks.length = (arguments.map Value.bank).length := by
    simpa [banks, length] using sameLength
  have inside : Nat.find somewhere < layout.banks.length := by
    by_contra outside
    have beyond := Nat.le_of_not_lt outside
    refine Nat.find_spec somewhere ?_
    rw [List.getElem?_eq_none beyond, List.getElem?_eq_none (sameBanks ▸ beyond)]
  have declares := List.getElem?_eq_getElem inside
  have finds := List.getElem?_eq_getElem (sameBanks ▸ inside)
  refine ⟨Nat.find somewhere, _, _, declares, finds, fun same => ?_, fun earlier isEarlier => ?_⟩
  · exact Nat.find_spec somewhere (by rw [declares, finds, same])
  · exact not_not.mp (Nat.find_min somewhere isEarlier)

/-- Slots and arguments come apart at the first mismatch. -/
theorem FirstMismatch.exists_split (first : layout.FirstMismatch arguments position declared actual) :
    ∃ slot value, layout.slots = layout.slots.take position ++ slot :: layout.slots.drop (position + 1) ∧
      arguments = arguments.take position ++ value :: arguments.drop (position + 1) ∧
      (arguments.take position).map Value.bank = (layout.slots.take position).map Slot.bank ∧
      (layout.slots.take position).length = position ∧ slot.bank = declared ∧ value.bank = actual := by
  obtain ⟨slot, isSlot, isDeclared⟩ :=
    Option.map_eq_some_iff.mp (List.getElem?_map .. ▸ first.declares)
  obtain ⟨value, isValue, isActual⟩ :=
    Option.map_eq_some_iff.mp (List.getElem?_map .. ▸ first.finds)
  obtain ⟨slotInside, isSlot⟩ := List.getElem?_eq_some_iff.mp isSlot
  obtain ⟨valueInside, isValue⟩ := List.getElem?_eq_some_iff.mp isValue
  refine ⟨slot, value, ?_, ?_, ?_, List.length_take_of_le (Nat.le_of_lt slotInside), isDeclared,
    isActual⟩
  · rw [← isSlot, List.getElem_cons_drop, List.take_append_drop]
  · rw [← isValue, List.getElem_cons_drop, List.take_append_drop]
  · refine List.ext_getElem? fun earlier => ?_
    rw [List.map_take, List.map_take, List.getElem?_take, List.getElem?_take]
    split
    · next isEarlier => exact (first.agrees earlier isEarlier).symm
    · rfl

end Layout

/-! ## What lowering writes -/

/-- A file has taken in the arguments of so many positions in the slots of these positions, and nothing
else in it has changed. -/
structure Layout.Fills (layout : Layout) (arguments : List Value) (count : Nat)
    (before after : RegisterFile) : Prop where
  sized : after.sizes = before.sizes
  stored : ∀ position < count, ∀ slot value, layout.slots[position]? = some slot →
    arguments[position]? = some value → after.cell? slot = some (.ofValue value)
  kept : ∀ slot, slot ∉ layout.slots.take count → after.cell? slot = before.cell? slot

namespace Marshalling

variable {layout : Layout} {arguments : List Value} {before after file : RegisterFile}
  {position count : Nat} {declared actual : Bank}

/-- Storing the arguments of the first positions fills these positions. -/
theorem exists_fills (sound : layout.Sound) (roomy : before.sizes.covers layout.sizes = true)
    (agree : (arguments.take count).map Value.bank = (layout.slots.take count).map Slot.bank) :
    ∃ after, storeAll 0 (layout.slots.take count) (arguments.take count) before = (after, .ok ()) ∧
      layout.Fills arguments count before after := by
  have covered := (BankSizes.covers_iff before.sizes layout.sizes).mp roomy
  obtain ⟨after, storedAll, sized, kept, contents⟩ := exists_storeAll 0 before
    (sound.nodup.sublist (List.take_sublist _ _)) agree fun slot member =>
      Nat.lt_of_lt_of_le (sound.inRange slot (List.mem_of_mem_take member)) (covered slot.bank)
  refine ⟨after, storedAll, sized, fun position isEarlier slot value isSlot isValue => ?_, kept⟩
  have content := congrArg (·[position]?) contents
  simp only [List.getElem?_map, List.getElem?_take, if_pos isEarlier, isSlot, isValue,
    Option.map_some, Option.some.injEq] at content
  exact content

theorem lowerInto_of_matching (sound : layout.Sound)
    (roomy : before.sizes.covers layout.sizes = true)
    (matching : layout.banks = arguments.map Value.bank) :
    ∃ after, lowerInto before layout arguments = (after, .ok ()) ∧
      layout.Fills arguments layout.length before after := by
  have sameLength : layout.length = arguments.length := by
    have lengths := congrArg List.length matching
    simpa [Layout.banks, Layout.length] using lengths
  have allSlots : layout.slots.take layout.length = layout.slots := List.take_length
  have allArguments : arguments.take layout.length = arguments := by
    rw [sameLength, List.take_length]
  obtain ⟨after, storedAll, fills⟩ := @exists_fills layout arguments before layout.length sound roomy
    (by rw [allSlots, allArguments]; exact matching.symm)
  rw [allSlots, allArguments] at storedAll
  refine ⟨after, ?_, fills⟩
  rw [lowerInto, if_pos sameLength, storedAll]

/-- Arguments are not lowered past the first one that is of the wrong kind, and those before it are. -/
theorem lowerInto_of_mismatch (sound : layout.Sound)
    (roomy : before.sizes.covers layout.sizes = true)
    (sameLength : layout.length = arguments.length)
    (first : layout.FirstMismatch arguments position declared actual) :
    ∃ after, lowerInto before layout arguments =
        (after, .error (.fault (.bankMismatch position declared actual))) ∧
      layout.Fills arguments position before after := by
  have covered := (BankSizes.covers_iff before.sizes layout.sizes).mp roomy
  obtain ⟨slot, value, splitSlots, splitArguments, agree, isPosition, rfl, rfl⟩ := first.exists_split
  obtain ⟨after, storedBefore, broken⟩ := @exists_storeAll_of_mismatch _
    (layout.slots.drop (position + 1)) _ (arguments.drop (position + 1)) slot value 0 before agree
    first.differs.symm fun earlier member =>
      Nat.lt_of_lt_of_le (sound.inRange earlier (List.mem_of_mem_take member)) (covered earlier.bank)
  obtain ⟨filled, storedAll, fills⟩ := exists_fills sound roomy agree
  obtain rfl : after = filled := (Prod.mk.inj (storedBefore.symm.trans storedAll)).1
  rw [← splitSlots, ← splitArguments, isPosition, Nat.zero_add] at broken
  refine ⟨after, ?_, fills⟩
  rw [lowerInto, if_pos sameLength, broken]

/-! ## Lowering into fresh registers -/

theorem covers_ofSizes (sizes : BankSizes) :
    (RegisterFile.ofSizes sizes).sizes.covers sizes = true := by
  rw [BankSizes.covers_iff, RegisterFile.sizes_ofSizes]
  exact fun _ => Nat.le_refl _

/-- What lowering comes to in fresh registers is what it comes to in any file with enough room. -/
theorem lower_of_lowerInto {result : Except Interruption Unit}
    (lowered : lowerInto (.ofSizes layout.sizes) layout arguments = (after, result)) :
    lower layout arguments = result.map fun _ => after := by
  unfold lower
  rw [lowered]
  cases result <;> rfl

theorem lower_of_arity (wrong : layout.length ≠ arguments.length) :
    lower layout arguments =
      .error (.fault (.arityMismatch layout.signature layout.length arguments.length)) :=
  lower_of_lowerInto (if_neg wrong)

theorem lower_of_mismatch (sound : layout.Sound) (sameLength : layout.length = arguments.length)
    (first : layout.FirstMismatch arguments position declared actual) :
    lower layout arguments = .error (.fault (.bankMismatch position declared actual)) := by
  obtain ⟨after, lowered, _⟩ :=
    lowerInto_of_mismatch sound (covers_ofSizes layout.sizes) sameLength first
  exact lower_of_lowerInto lowered

/-- Arguments are lowered exactly when they are of the banks that are declared. -/
theorem lower_iff (sound : layout.Sound) :
    (∃ file, lower layout arguments = .ok file) ↔ layout.banks = arguments.map Value.bank := by
  constructor
  · rintro ⟨file, lowered⟩
    by_contra differ
    by_cases sameLength : layout.length = arguments.length
    · obtain ⟨position, declared, actual, first⟩ := Layout.exists_firstMismatch sameLength differ
      rw [lower_of_mismatch sound sameLength first] at lowered
      cases lowered
    · rw [lower_of_arity sameLength] at lowered
      cases lowered
  · intro matching
    obtain ⟨file, lowered, _⟩ := exists_lower sound matching.symm
    exact ⟨file, lowered⟩

/-! ## Back and forth -/

/-- What has been lowered is raised again. -/
theorem raise_of_lower (sound : layout.Sound) (lowered : lower layout arguments = .ok file) :
    raise layout file = .ok arguments := by
  obtain ⟨other, isLowered, _, contents⟩ :=
    exists_lower sound ((lower_iff sound).mp ⟨file, lowered⟩).symm
  obtain rfl : file = other := Except.ok.inj (lowered.symm.trans isLowered)
  exact loadAll_of_cells contents

/-- A file of the layout's own sizes, with zeros and ones for booleans, is rebuilt from the values that
are raised from it. -/
theorem exists_raise_lower {types : List DataType} (laidOut : Layout.ofTypes types = .ok layout)
    (sized : file.sizes = layout.sizes) (truths : file.HasTruths) :
    ∃ values, raise layout file = .ok values ∧ lower layout values = .ok file := by
  have sound := Layout.sound_of_ofTypes laidOut
  obtain ⟨values, loaded, _⟩ := exists_loadAll fun slot member =>
    sized ▸ sound.inRange slot member
  have cells := cells_of_loadAll truths loaded
  obtain ⟨rebuilt, lowered, sameSizes, contents⟩ := exists_lower sound (banks_of_cells cells)
  have sameCells : ∀ slot, rebuilt.cell? slot = file.cell? slot := by
    intro slot
    by_cases member : slot ∈ layout.slots
    · exact List.map_inj_left.mp (contents.trans cells.symm) slot member
    · -- Beyond the slots of the layout neither file has any.
      have outside := (Layout.mem_slots_iff laidOut slot).not.mp member
      have missing : ∀ other : RegisterFile, other.sizes = layout.sizes → other.cell? slot = none := by
        intro other isSized
        exact RegisterFile.cell?_of_not_lt (isSized ▸ outside)
      rw [missing rebuilt sameSizes, missing file sized]
  exact ⟨values, loaded, RegisterFile.ext_cell? sameCells ▸ lowered⟩

end Marshalling

/-- How arguments are lowered with the layout of a signature, and how values are raised. -/
structure Layout.Marshals (layout : Layout) (types : List DataType) : Prop where
  /-- The bank that is declared for a position is that of its type. -/
  declares : types.map DataType.bank? = layout.banks.map some
  /-- Accepted are as many arguments as there are positions, each of the bank declared for it. -/
  accepts : ∀ arguments : List Value, (∃ file, Marshalling.lower layout arguments = .ok file) ↔
    layout.banks = arguments.map Value.bank
  /-- Whatever has been lowered is raised again. -/
  raises : ∀ arguments file, Marshalling.lower layout arguments = .ok file →
    Marshalling.raise layout file = .ok arguments
  /-- A wrong number of arguments is told before anything else. -/
  arity : ∀ arguments : List Value, layout.length ≠ arguments.length →
    Marshalling.lower layout arguments =
      .error (.fault (.arityMismatch layout.signature layout.length arguments.length))
  /-- Among as many arguments as there are positions, the first one that is not of the bank declared for
  it is told. -/
  mismatch : ∀ arguments : List Value, layout.length = arguments.length →
    layout.banks ≠ arguments.map Value.bank →
      ∃ position declared actual, layout.FirstMismatch arguments position declared actual ∧
        Marshalling.lower layout arguments =
          .error (.fault (.bankMismatch position declared actual))
  /-- In any file with enough room the outcome is the same, and just the positions before the failure
  have been written: none if the number of arguments is wrong, those before the first mismatch, or
  all. -/
  writes : ∀ (arguments : List Value) (before : RegisterFile),
    before.sizes.covers layout.sizes = true →
      (layout.length ≠ arguments.length → Marshalling.lowerInto before layout arguments =
        (before, .error (.fault
          (.arityMismatch layout.signature layout.length arguments.length)))) ∧
      (∀ position declared actual, layout.length = arguments.length →
        layout.FirstMismatch arguments position declared actual →
          ∃ after, Marshalling.lowerInto before layout arguments =
              (after, .error (.fault (.bankMismatch position declared actual))) ∧
            layout.Fills arguments position before after) ∧
      (layout.banks = arguments.map Value.bank →
        ∃ after, Marshalling.lowerInto before layout arguments = (after, .ok ()) ∧
          layout.Fills arguments layout.length before after)
  /-- A file of just these sizes, with zeros and ones for booleans, is rebuilt from what is raised. -/
  rebuilds : ∀ file : RegisterFile, file.sizes = layout.sizes → file.HasTruths →
    ∃ values, Marshalling.raise layout file = .ok values ∧
      Marshalling.lower layout values = .ok file

/-- With the layout of any signature, lowering accepts just the arguments of the declared banks, breaks
off at the first other one with just the positions before it written, and is undone by raising, as
raising is by lowering. -/
theorem layout_lowers_and_raises {types : List DataType} {layout : Layout}
    (laidOut : Layout.ofTypes types = .ok layout) : layout.Marshals types := by
  have sound := Layout.sound_of_ofTypes laidOut
  constructor
  case declares => exact Layout.banks_of_assign (Layout.assign_of_ofTypes laidOut)
  case accepts => exact fun arguments => Marshalling.lower_iff sound
  case raises => exact fun arguments file lowered => Marshalling.raise_of_lower sound lowered
  case arity => exact fun arguments wrong => Marshalling.lower_of_arity wrong
  case mismatch =>
    intro arguments sameLength differ
    obtain ⟨position, declared, actual, first⟩ := Layout.exists_firstMismatch sameLength differ
    exact ⟨position, declared, actual, first, Marshalling.lower_of_mismatch sound sameLength first⟩
  case writes =>
    intro arguments before roomy
    exact ⟨fun wrong => if_neg wrong,
      fun position declared actual sameLength first =>
        Marshalling.lowerInto_of_mismatch sound roomy sameLength first,
      fun matching => Marshalling.lowerInto_of_matching sound roomy matching⟩
  case rebuilds =>
    exact fun file sized truths => Marshalling.exists_raise_lower laidOut sized truths

/-- Arguments of three banks, one of which has two positions, are lowered and raised; with a text in
the place of the boolean only the first position is written. -/
theorem layout_lowers_and_raises_of_mixed :
    let types : List DataType := [.int, .boolean, .int, .text]
    let layout : Layout := ⟨types, [⟨.int, 0⟩, ⟨.boolean, 0⟩, ⟨.int, 1⟩, ⟨.text, 0⟩],
      { longs := 2, ints := 1, strings := 1 }⟩
    let arguments : List Value := [.int 7, .boolean true, .int 9, .text "x"]
    let file : RegisterFile := { longs := #[7, 9], ints := #[1], strings := #["x"] }
    let mistaken : List Value := [.int 7, .text "x", .int 9, .text "x"]
    let roomy : RegisterFile := { longs := #[1, 2, 3], ints := #[5], strings := #["a", "b"] }
    let after : RegisterFile := { longs := #[7, 2, 3], ints := #[5], strings := #["a", "b"] }
    Layout.ofTypes types = .ok layout ∧ layout.Marshals types ∧
      Marshalling.lower layout arguments = .ok file ∧
      Marshalling.raise layout file = .ok arguments ∧
      Marshalling.lowerInto roomy layout mistaken =
        (after, .error (.fault (.bankMismatch 1 .boolean .text))) ∧
      layout.Fills mistaken 1 roomy after := by
  intro types layout arguments file mistaken roomy after
  have laidOut : Layout.ofTypes types = .ok layout := rfl
  have marshals := layout_lowers_and_raises laidOut
  have lowered : Marshalling.lower layout arguments = .ok file := rfl
  have first : layout.FirstMismatch mistaken 1 .boolean .text :=
    ⟨rfl, rfl, by decide, fun earlier isFirst => by obtain rfl := Nat.lt_one_iff.mp isFirst; rfl⟩
  obtain ⟨reached, isReached, fills⟩ :=
    (marshals.writes mistaken roomy (by decide)).2.1 1 .boolean .text rfl first
  have broken : Marshalling.lowerInto roomy layout mistaken =
      (after, .error (.fault (.bankMismatch 1 .boolean .text))) := rfl
  obtain rfl : reached = after := (Prod.mk.inj (isReached.symm.trans broken)).1
  exact ⟨laidOut, marshals, lowered, marshals.raises arguments file lowered, broken, fills⟩

end WorkerMachine
