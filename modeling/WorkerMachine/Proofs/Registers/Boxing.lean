import WorkerMachine.Proofs.Registers.Copying
/-!
# Raw content and boxed values

Content that is copied raw from slot to slot can as well be read as a value and stored again, as long
as the slots of booleans hold nothing but zeros and ones.  So seeding a worker from the registers of
its caller comes to the same as lowering the values that stand there and seeding the worker from the
lowered ones, and delivering results comes to the same as storing their values one after the other.
-/

namespace WorkerMachine

/-- The slots of booleans hold zeros and ones only. -/
def RegisterFile.HasTruths (file : RegisterFile) : Prop :=
  ∀ number ∈ file.ints, number = 0 ∨ number = 1

/-- The slots of a layout, moved to other indices of their banks. -/
def Layout.slotsAt (layout : Layout) (indices : List Nat) : List Slot :=
  List.zipWith Slot.mk layout.banks indices

def RegisterFile.Covers (file : RegisterFile) (slots : List Slot) : Prop :=
  ∀ slot ∈ slots, slot.index < file.sizes.get slot.bank

theorem Layout.slotsAt_indices (layout : Layout) : layout.slotsAt layout.indices = layout.slots := by
  unfold slotsAt banks indices
  induction layout.slots with
  | nil => rfl
  | cons slot slots inductionHypothesis => exact congrArg (slot :: ·) inductionHypothesis

namespace RegisterFile

variable {file : RegisterFile} {slot : Slot} {cell : Cell} {value : Value}

theorem hasTruths_ofSizes (sizes : BankSizes) : (ofSizes sizes).HasTruths := by
  intro number member
  left
  exact (Array.mem_replicate.mp member).2

/-- Reading a value and storing it again restores the content. -/
theorem HasTruths.ofValue_toValue (truths : file.HasTruths) (found : file.cell? slot = some cell) :
    Cell.ofValue cell.toValue = cell := by
  cases cell with
  | int number =>
    have member : number ∈ file.ints := by
      obtain ⟨bank, index⟩ := slot
      cases bank with
      | boolean =>
        obtain ⟨content, isContent, same⟩ := Option.map_eq_some_iff.mp found
        cases same
        exact Array.mem_of_getElem? isContent
      | _ =>
        obtain ⟨content, _, same⟩ := Option.map_eq_some_iff.mp found
        cases same
    obtain rfl | rfl := truths number member
    · rfl
    · rfl
  | _ => rfl

/-- A slot that is read as a value holds what the value is stored as. -/
theorem HasTruths.cell?_of_load (truths : file.HasTruths) (loaded : file.load slot = .ok value) :
    file.cell? slot = some (.ofValue value) := by
  cases found : file.cell? slot with
  | none => simp [load, read, found, Except.map] at loaded
  | some cell =>
    have isValue : cell.toValue = value := by
      simpa [load, read, found, Except.map] using loaded
    rw [← isValue, truths.ofValue_toValue found]

end RegisterFile

namespace Marshalling

variable {file source target first second : RegisterFile} {slots : List Slot} {values : List Value}
  {banks : List Bank} {firsts seconds indices : List Nat} {params returns : Layout}

theorem cells_of_loadAll (truths : file.HasTruths) (loaded : loadAll file slots = .ok values) :
    slots.map file.cell? = values.map fun value => some (Cell.ofValue value) := by
  induction slots generalizing values with
  | nil =>
    cases loaded
    rfl
  | cons slot slots inductionHypothesis =>
    unfold loadAll at loaded
    split at loaded
    · cases loaded
    · next value isValue =>
      cases restLoaded : loadAll file slots with
      | error overrun =>
        rw [restLoaded] at loaded
        cases loaded
      | ok rest =>
        rw [restLoaded] at loaded
        cases loaded
        rw [List.map_cons, List.map_cons, truths.cell?_of_load isValue,
          inductionHypothesis restLoaded]

theorem loadAll_of_cells
    (cells : slots.map file.cell? = values.map fun value => some (Cell.ofValue value)) :
    loadAll file slots = .ok values := by
  induction slots generalizing values with
  | nil =>
    cases values with
    | nil => rfl
    | cons value values => cases cells
  | cons slot slots inductionHypothesis =>
    cases values with
    | nil => cases cells
    | cons value values =>
      obtain ⟨found, others⟩ := List.cons.inj cells
      have loaded : file.load slot = .ok value := by
        simp [RegisterFile.load, RegisterFile.read, found, Except.map]
      unfold loadAll
      simp only [loaded, inductionHypothesis others, Except.map]

/-! ## Arguments -/

/-- Seeding reads nothing but the content of the arguments' slots. -/
theorem copyAll_seedPlan_congr (readable : first.Covers (List.zipWith Slot.mk banks firsts))
    (same : (List.zipWith Slot.mk banks firsts).map first.cell? =
      (List.zipWith Slot.mk banks seconds).map second.cell?)
    (used : BankSizes) (target : RegisterFile) :
    copyAll first (seedPlan used banks firsts) target =
      copyAll second (seedPlan used banks seconds) target := by
  induction banks generalizing firsts seconds used target with
  | nil => rfl
  | cons bank banks inductionHypothesis =>
    cases firsts with
    | nil =>
      cases seconds with
      | nil => rfl
      | cons _ _ => cases same
    | cons index firsts =>
      cases seconds with
      | nil => cases same
      | cons other seconds =>
        obtain ⟨sameCell, sameRest⟩ := List.cons.inj same
        obtain ⟨cell, found⟩ := RegisterFile.exists_cell?_of_lt (readable _ List.mem_cons_self)
        have sameSlot : ∀ target : RegisterFile, target.copySlot (used.get bank) first ⟨bank, index⟩ =
            target.copySlot (used.get bank) second ⟨bank, other⟩ := by
          intro target
          simp only [RegisterFile.copySlot, RegisterFile.read, found, ← sameCell]
        unfold seedPlan copyAll
        rw [sameSlot]
        split
        · apply inductionHypothesis _ sameRest
          exact fun slot member => readable slot (List.mem_cons_of_mem _ member)
        · rfl

theorem banks_of_cells
    (cells : slots.map file.cell? = values.map fun value => some (Cell.ofValue value)) :
    values.map Value.bank = slots.map Slot.bank := by
  induction slots generalizing values with
  | nil =>
    cases values with
    | nil => rfl
    | cons value values => cases cells
  | cons slot slots inductionHypothesis =>
    cases values with
    | nil => cases cells
    | cons value values =>
      obtain ⟨found, others⟩ := List.cons.inj cells
      have sameBank : value.bank = slot.bank := by
        rw [← Cell.bank_ofValue]
        exact RegisterFile.bank_of_cell? found
      rw [List.map_cons, List.map_cons, sameBank, inductionHypothesis others]

theorem banks_slotsAt (complete : indices.length = params.length) :
    (params.slotsAt indices).map Slot.bank = params.banks := by
  have enough : params.banks.length ≤ indices.length := by
    rw [complete, Layout.banks, List.length_map]
    exact Nat.le_refl _
  calc (params.slotsAt indices).map Slot.bank
      = (params.banks.zip indices).map Prod.fst := by
        rw [Layout.slotsAt, List.zip, List.map_zipWith, List.map_zipWith]
    _ = params.banks := List.map_fst_zip enough

/-- A worker that is seeded from the registers of its caller gets the same registers as one that is
seeded from the lowered values of the same arguments. -/
theorem exists_lowered (sound : params.Sound) (truths : source.HasTruths)
    (complete : indices.length = params.length)
    (readable : source.Covers (params.slotsAt indices))
    (loaded : loadAll source (params.slotsAt indices) = .ok values) :
    ∃ file, lower params values = .ok file ∧
      ∀ locals, seed locals params source indices = seed locals params file params.indices := by
  have cells := cells_of_loadAll truths loaded
  have matching : values.map Value.bank = params.banks := by
    rw [banks_of_cells cells, banks_slotsAt complete]
  obtain ⟨file, lowered, _, contents⟩ := exists_lower sound matching
  refine ⟨file, lowered, fun locals => ?_⟩
  have same : (params.slotsAt indices).map source.cell? =
      (params.slotsAt params.indices).map file.cell? := by
    rw [params.slotsAt_indices, cells, contents]
  unfold seed
  rw [copyAll_seedPlan_congr readable same]

/-! ## Results -/

/-- Copying results comes to the same as storing their values, and leaves all other slots alone. -/
theorem exists_copyAll_stored (truths : source.HasTruths)
    (loaded : loadAll source slots = .ok values) (complete : indices.length = slots.length)
    (writable : target.Covers (List.zipWith Slot.mk (slots.map Slot.bank) indices))
    (position : Nat) :
    ∃ after,
      copyAll source (deliveryPlan (slots.map Slot.bank) (slots.map Slot.index) indices) target =
        (after, .ok ()) ∧
      storeAll position (List.zipWith Slot.mk (slots.map Slot.bank) indices) values target =
        (after, .ok ()) ∧
      after.sizes = target.sizes ∧
      ∀ slot, slot ∉ List.zipWith Slot.mk (slots.map Slot.bank) indices →
        after.cell? slot = target.cell? slot := by
  induction slots generalizing values indices target position with
  | nil =>
    cases loaded
    exact ⟨target, rfl, rfl, rfl, fun _ _ => rfl⟩
  | cons slot slots inductionHypothesis =>
    cases indices with
    | nil => cases complete
    | cons index indices =>
      have cells := cells_of_loadAll truths loaded
      cases values with
      | nil => cases cells
      | cons value values =>
        obtain ⟨found, others⟩ := List.cons.inj cells
        have ofBank : (Cell.ofValue value).bank = slot.bank := RegisterFile.bank_of_cell? found
        have isWritable : index < target.sizes.get slot.bank := writable _ List.mem_cons_self
        have copied : target.copySlot index source ⟨slot.bank, slot.index⟩ =
            .ok (target.putCell index (.ofValue value)) := by
          unfold RegisterFile.copySlot RegisterFile.read RegisterFile.write
          rw [found]
          dsimp only
          rw [ofBank, if_pos isWritable]
        have stored : target.store ⟨slot.bank, index⟩ value =
            .ok (target.putCell index (.ofValue value)) :=
          RegisterFile.store_eq_ok ((Cell.bank_ofValue value).symm.trans ofBank) isWritable
        have stillWritable : (target.putCell index (.ofValue value)).Covers
            (List.zipWith Slot.mk (slots.map Slot.bank) indices) := by
          intro other member
          rw [RegisterFile.sizes_putCell]
          exact writable other (List.mem_cons_of_mem _ member)
        obtain ⟨after, copiedAll, storedAll, sameSizes, elsewhere⟩ :=
          inductionHypothesis (loadAll_of_cells others) (Nat.succ.inj complete) stillWritable
            (position + 1)
        refine ⟨after, ?_, ?_, ?_, ?_⟩
        · simp only [List.map_cons, deliveryPlan, copyAll, copied]
          exact copiedAll
        · simp only [List.map_cons, List.zipWith_cons_cons, storeAll, stored]
          exact storedAll
        · rw [sameSizes, RegisterFile.sizes_putCell]
        · intro other outside
          obtain ⟨isOther, outsideRest⟩ := not_or.mp fun inside =>
            outside (List.mem_cons.mpr inside)
          rw [elsewhere other outsideRest, RegisterFile.cell?_putCell, ofBank, if_neg isOther]

end Marshalling

/-- A file takes in values, each in its slot and one after the other, and nothing else changes. -/
structure RegisterFile.TakesIn (before : RegisterFile) (slots : List Slot) (values : List Value)
    (after : RegisterFile) : Prop where
  stored : Marshalling.storeAll 0 slots values before = (after, .ok ())
  sized : after.sizes = before.sizes
  elsewhere : ∀ slot, slot ∉ slots → after.cell? slot = before.cell? slot

namespace Marshalling

variable {source : RegisterFile} {returns : Layout}

/-- What is returned can be raised from fresh registers, and wherever else it is delivered, the same
values are taken in. -/
theorem exists_returned (sound : returns.Sound) (truths : source.HasTruths)
    (roomy : source.sizes.covers returns.sizes = true) :
    ∃ values,
      (∃ fresh, copyReturns returns source returns.indices (.ofSizes returns.sizes) returns.indices =
          (fresh, .ok ()) ∧ raise returns fresh = .ok values) ∧
        ∀ (target : RegisterFile) (indices : List Nat), indices.length = returns.length →
          target.Covers (returns.slotsAt indices) →
            ∃ after, copyReturns returns source returns.indices target indices = (after, .ok ()) ∧
              target.TakesIn (returns.slotsAt indices) values after := by
  have covered := (BankSizes.covers_iff source.sizes returns.sizes).mp roomy
  obtain ⟨values, loaded, _⟩ := exists_loadAll fun slot member =>
    Nat.lt_of_lt_of_le (sound.inRange slot member) (covered slot.bank)
  have matching := banks_of_cells (cells_of_loadAll truths loaded)
  have writable : (RegisterFile.ofSizes returns.sizes).Covers returns.slots := by
    intro slot member
    rw [RegisterFile.sizes_ofSizes]
    exact sound.inRange slot member
  refine ⟨values, ?_, fun target indices complete isCovered => ?_⟩
  · obtain ⟨fresh, copied, stored, _⟩ := exists_copyAll_stored truths loaded
      (show returns.indices.length = returns.slots.length from List.length_map _)
      (by rw [← returns.slotsAt_indices] at writable; exact writable) 0
    obtain ⟨after, storedAll, _, _, contents⟩ :=
      exists_storeAll 0 (.ofSizes returns.sizes) sound.nodup matching writable
    have isFresh : fresh = after := by
      have both := stored.symm.trans
        ((congrArg (storeAll 0 · values _) returns.slotsAt_indices).trans storedAll)
      exact (Prod.mk.inj both).1
    exact ⟨fresh, copied, loadAll_of_cells (isFresh ▸ contents)⟩
  · obtain ⟨after, copied, stored, sized, elsewhere⟩ :=
      exists_copyAll_stored truths loaded complete isCovered 0
    exact ⟨after, copied, stored, sized, elsewhere⟩

end Marshalling

end WorkerMachine
