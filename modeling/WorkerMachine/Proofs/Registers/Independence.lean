import WorkerMachine.Proofs.Registers.Copying
/-!
# Independent slots

Whatever is stored in a register file, copied into it and loaded from it, in any order and also past
the ends of its banks: the file behaves as a fixed number of slots, each of which holds what was put
there last.
-/

namespace WorkerMachine

/-- The report of an access to a slot, if banks of these sizes do not have it. -/
def Slot.overrun? (slot : Slot) (sizes : BankSizes) : Option Overrun :=
  if slot.index < sizes.get slot.bank then none else some ⟨sizes.get slot.bank, slot.index⟩

namespace RegisterFile

inductive Access where
  | store (slot : Slot) (value : Value)
  /-- Copy what stands in `source` at this index of the slot's bank. -/
  | copy (slot : Slot) (source : RegisterFile) (index : Nat)
  | load (slot : Slot)

inductive Ending where
  | written
  | loaded (value : Value)
  | mismatched (actual : Bank)
  | panicked (overrun : Overrun)
  deriving DecidableEq

/-- Carry out an access.  One that is refused or panics leaves the file as it is. -/
def access (file : RegisterFile) : Access → RegisterFile × Ending
  | .store slot value =>
    match file.store slot value with
    | .ok stored => (stored, .written)
    | .error (.mismatch actual) => (file, .mismatched actual)
    | .error (.overrun overrun) => (file, .panicked overrun)
  | .copy slot source index =>
    match file.copySlot slot.index source ⟨slot.bank, index⟩ with
    | .ok copied => (copied, .written)
    | .error overrun => (file, .panicked overrun)
  | .load slot =>
    match file.load slot with
    | .ok value => (file, .loaded value)
    | .error overrun => (file, .panicked overrun)

def after (file : RegisterFile) (accesses : List Access) : RegisterFile :=
  accesses.foldl (fun file access => (file.access access).1) file

/-- The value that an access puts in a slot of a file of these sizes, if it puts one there. -/
def Access.put? (sizes : BankSizes) (asked : Slot) : Access → Option Value
  | .store slot value =>
    if slot = asked ∧ value.bank = slot.bank ∧ slot.index < sizes.get slot.bank then some value
    else none
  | .copy slot source index =>
    if slot = asked ∧ slot.index < sizes.get slot.bank then source.get? ⟨slot.bank, index⟩ else none
  | .load _ => none

/-- The report of an access that panics.  A copy reads before it writes, and a value of another bank is
refused before any bank is looked at. -/
def Access.overrun? (sizes : BankSizes) : Access → Option Overrun
  | .store slot value => if value.bank = slot.bank then slot.overrun? sizes else none
  | .copy slot source index =>
    ((⟨slot.bank, index⟩ : Slot).overrun? source.sizes).or (slot.overrun? sizes)
  | .load slot => slot.overrun? sizes

/-- What was put in a slot last; zero, if nothing was. -/
def held (sizes : BankSizes) (accesses : List Access) (slot : Slot) : Value :=
  (accesses.reverse.findSome? (Access.put? sizes slot)).getD (Cell.zeroOf slot.bank).toValue

/-! ## Single slots -/

theorem load_eq (file : RegisterFile) (slot : Slot) :
    file.load slot = match file.get? slot with
      | some value => .ok value
      | none => .error (file.overrunAt slot) := by
  cases found : file.cell? slot <;> simp [load, read, get?, found, Except.map]

theorem get?_putCell (file : RegisterFile) (index : Nat) (cell : Cell) (asked : Slot)
    (inRange : index < file.sizes.get cell.bank) :
    (file.putCell index cell).get? asked =
      if (⟨cell.bank, index⟩ : Slot) = asked then some cell.toValue else file.get? asked := by
  by_cases same : asked = ⟨cell.bank, index⟩
  · simp [get?, cell?_putCell, same, inRange]
  · simp [get?, cell?_putCell, same, Ne.symm same]

/-! ## One access -/

/-- What an access comes to: it puts the content of one slot, or it leaves the file as it is and puts
nothing anywhere. -/
theorem access_cases (file : RegisterFile) (access : Access) :
    (∃ index cell, index < file.sizes.get cell.bank ∧
      file.access access = (file.putCell index cell, .written) ∧
      access.overrun? file.sizes = none ∧
      ∀ asked, access.put? file.sizes asked =
        if (⟨cell.bank, index⟩ : Slot) = asked then some cell.toValue else none) ∨
    ((file.access access).1 = file ∧ (file.access access).2 ≠ .written ∧
      (∀ overrun, (file.access access).2 = .panicked overrun ↔
        access.overrun? file.sizes = some overrun) ∧
      ∀ asked, access.put? file.sizes asked = none) := by
  cases access with
  | store slot value =>
      by_cases sameBank : value.bank = slot.bank
      · by_cases inRange : slot.index < file.sizes.get slot.bank
        · refine .inl ⟨slot.index, .ofValue value, ?_, ?_, ?_, ?_⟩
          · simpa [sameBank] using inRange
          · simp [access, store_eq_ok sameBank inRange]
          · simp [Access.overrun?, Slot.overrun?, sameBank, inRange]
          · simp [Access.put?, sameBank, inRange]
        · refine .inr ?_
          simp [access, store, write, Access.overrun?, Slot.overrun?, Access.put?, overrunAt, sameBank,
            inRange]
      · -- The index does not matter to a value of another bank.
        refine .inr ?_
        simp [access, store, Access.overrun?, Access.put?, sameBank]
  | copy slot source index =>
      cases found : source.cell? ⟨slot.bank, index⟩ with
      | none =>
          have unreadable : ¬ index < source.sizes.get slot.bank := by
            intro readable
            rcases @exists_cell?_of_lt source ⟨slot.bank, index⟩ readable with ⟨cell, isCell⟩
            rw [found] at isCell
            cases isCell
          refine .inr ?_
          simp [access, copySlot, read, found, Access.overrun?, Slot.overrun?, Access.put?, get?,
            overrunAt, unreadable]
      | some cell =>
          have sameBank : cell.bank = slot.bank := @bank_of_cell? source ⟨slot.bank, index⟩ cell found
          have readable : index < source.sizes.get slot.bank := by
            have present := isSome_cell? source ⟨slot.bank, index⟩
            simpa [found] using present
          by_cases inRange : slot.index < file.sizes.get slot.bank
          · refine .inl ⟨slot.index, cell, ?_, ?_, ?_, ?_⟩
            · simpa [sameBank] using inRange
            · simp [access, copySlot, read, write, found, sameBank, inRange]
            · simp [Access.overrun?, Slot.overrun?, readable, inRange]
            · simp [Access.put?, get?, found, sameBank, inRange]
          · refine .inr ?_
            simp [access, copySlot, read, write, found, sameBank, Access.overrun?, Slot.overrun?,
              Access.put?, overrunAt, readable, inRange]
  | load slot =>
      refine .inr ?_
      by_cases inRange : slot.index < file.sizes.get slot.bank
      · rcases exists_load_of_lt inRange with ⟨value, loaded, _⟩
        simp [access, loaded, Access.overrun?, Slot.overrun?, Access.put?, inRange]
      · simp [access, load, read, Except.map, cell?_of_not_lt inRange, Access.overrun?, Slot.overrun?,
          Access.put?, overrunAt, inRange]

theorem sizes_access (file : RegisterFile) (access : Access) :
    (file.access access).1.sizes = file.sizes := by
  rcases file.access_cases access with ⟨index, cell, _, written, _⟩ | ⟨kept, _⟩
  · simp [written]
  · rw [kept]

/-- An access changes the slot in which it puts a value, and no other slot. -/
theorem get?_access (file : RegisterFile) (access : Access) (asked : Slot) :
    (file.access access).1.get? asked = (access.put? file.sizes asked).or (file.get? asked) := by
  rcases file.access_cases access with ⟨index, cell, inRange, written, _, puts⟩ | ⟨kept, _, _, puts⟩
  · rw [written, puts, get?_putCell file index cell asked inRange]
    split <;> simp
  · rw [kept, puts]
    simp

/-! ## Many accesses -/

theorem after_snoc (file : RegisterFile) (accesses : List Access) (access : Access) :
    file.after (accesses ++ [access]) = ((file.after accesses).access access).1 := by
  simp [after]

@[simp]
theorem sizes_after (file : RegisterFile) (accesses : List Access) :
    (file.after accesses).sizes = file.sizes := by
  induction accesses using List.reverseRecOn with
  | nil => rfl
  | append_singleton accesses access inductionHypothesis =>
      rw [after_snoc, sizes_access, inductionHypothesis]

theorem get?_after (file : RegisterFile) (accesses : List Access) (asked : Slot) :
    (file.after accesses).get? asked =
      (accesses.reverse.findSome? (Access.put? file.sizes asked)).or (file.get? asked) := by
  induction accesses using List.reverseRecOn with
  | nil => simp [after]
  | append_singleton accesses access inductionHypothesis =>
      rw [after_snoc, get?_access, sizes_after, inductionHypothesis, List.reverse_append,
        List.reverse_singleton, List.singleton_append, List.findSome?_cons]
      cases access.put? file.sizes asked <;> simp

theorem get?_after_ofSizes (sizes : BankSizes) (accesses : List Access) (asked : Slot) :
    ((ofSizes sizes).after accesses).get? asked =
      if asked.index < sizes.get asked.bank then some (held sizes accesses asked) else none := by
  split
  · next inRange =>
    rw [get?_after, sizes_ofSizes, get?, cell?_ofSizes, if_pos inRange, held]
    cases accesses.reverse.findSome? (Access.put? sizes asked) <;> simp
  · next missing => exact get?_of_not_lt (by simpa using missing)

/-- A file of these sizes whose slots hold what accesses have put there. -/
structure KeepsSlots (sizes : BankSizes) (accesses : List Access) (file : RegisterFile) : Prop where
  sized : file.sizes = sizes
  /-- A value of another bank is refused, whatever the index. -/
  mismatches : ∀ slot value, value.bank ≠ slot.bank →
    file.access (.store slot value) = (file, .mismatched value.bank)
  /-- Only accesses past the end of a bank panic. -/
  panics : ∀ access overrun, (file.access access).2 = .panicked overrun ↔
    access.overrun? sizes = some overrun
  unharmed : ∀ access overrun, (file.access access).2 = .panicked overrun →
    (file.access access).1 = file
  /-- The accesses that succeed in writing are those that put a value somewhere. -/
  writes : ∀ access, (file.access access).2 = .written ↔
    ∃ slot value, access.put? sizes slot = some value
  loads : ∀ slot, file.load slot =
    if slot.index < sizes.get slot.bank then .ok (held sizes accesses slot)
    else .error ⟨sizes.get slot.bank, slot.index⟩
  gets : ∀ slot, file.get? slot =
    if slot.index < sizes.get slot.bank then some (held sizes accesses slot) else none

end RegisterFile

open RegisterFile

/-- A fresh register file remains a fixed number of independent slots under any accesses: each slot holds
the value that was put there last, and zero before.  What is copied from a slot of booleans is true
exactly if the raw content is one. -/
theorem register_file_keeps_slots (sizes : BankSizes) (accesses : List Access) :
    KeepsSlots sizes accesses ((ofSizes sizes).after accesses) ∧
      ∀ (source : RegisterFile) (index : Nat), source.get? ⟨.boolean, index⟩ =
        source.ints[index]?.map fun number => .boolean (number = 1) := by
  have sized : ((ofSizes sizes).after accesses).sizes = sizes := by simp
  have gets := get?_after_ofSizes sizes accesses
  constructor
  · generalize (ofSizes sizes).after accesses = file at sized gets
    subst sized
    exact {
      sized := rfl
      mismatches := fun slot value different => by simp [access, store, different]
      panics := fun access overrun => by
        rcases file.access_cases access with ⟨_, _, _, written, none, _⟩ | ⟨_, _, panics, _⟩
        · simp [written, none]
        · exact panics overrun
      unharmed := fun access overrun panicked => by
        rcases file.access_cases access with ⟨_, _, _, written, _⟩ | ⟨kept, _⟩
        · simp [written] at panicked
        · exact kept
      writes := fun access => by
        rcases file.access_cases access with ⟨_, _, _, written, _, puts⟩ | ⟨_, unwritten, _, puts⟩
        · simp [written, puts]
        · simp [unwritten, puts]
      loads := fun slot => by
        rw [load_eq, gets]
        split <;> simp_all [overrunAt]
      gets := gets }
  · intro source index
    cases found : source.ints[index]? <;>
      simp [get?, cell?, found, Cell.toValue, beq_eq_decide]

/-- Equal indices of different banks do not disturb each other, and neither do accesses that fail. -/
theorem register_file_keeps_slots_of_mixed :
    let sizes : BankSizes := { longs := 2, ints := 2 }
    let source : RegisterFile := { ints := #[1, 7] }
    let accesses : List Access := [.store ⟨.boolean, 1⟩ (.boolean true), .store ⟨.int, 1⟩ (.int 5),
      .copy ⟨.boolean, 0⟩ source 0, .store ⟨.int, 1⟩ (.boolean true), .store ⟨.int, 9⟩ (.int 3),
      .copy ⟨.boolean, 0⟩ source 1]
    let file := (ofSizes sizes).after accesses
    file.load ⟨.boolean, 1⟩ = .ok (.boolean true) ∧ file.load ⟨.boolean, 0⟩ = .ok (.boolean false) ∧
      file.load ⟨.int, 1⟩ = .ok (.int 5) ∧ file.get? ⟨.int, 0⟩ = some (.int 0) ∧
      file.access (.store ⟨.int, 9⟩ (.text "seven")) = (file, .mismatched .text) ∧
      (file.access (.copy ⟨.int, 2⟩ file 1)).2 = .panicked ⟨2, 2⟩ := by
  intro sizes source accesses file
  obtain ⟨keeps, _⟩ := register_file_keeps_slots sizes accesses
  refine ⟨?_, ?_, ?_, ?_, keeps.mismatches _ _ (by decide), (keeps.panics _ _).mpr ?_⟩
  · exact (keeps.loads _).trans rfl
  · exact (keeps.loads _).trans rfl
  · exact (keeps.loads _).trans rfl
  · exact (keeps.gets _).trans rfl
  · have sized : file.sizes = sizes := keeps.sized
    simp [Access.overrun?, Slot.overrun?, sized, sizes, BankSizes.get]

end WorkerMachine
