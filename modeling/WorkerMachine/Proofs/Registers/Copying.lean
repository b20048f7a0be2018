import Mathlib.Data.List.Induction
import WorkerMachine.Proofs.Registers.Layouts
import WorkerMachine.Response
/-!
# Writing and copying registers

What storing, copying and delivering do to the banks of a register file: no operation ever changes
the size of a bank, and an operation whose slots are in range never fails.
-/

namespace WorkerMachine

namespace RegisterFile

/-! ## Sizes -/

theorem sizes_of_write {file after : RegisterFile} {index : Nat} {cell : Cell}
    (written : file.write index cell = .ok after) : after.sizes = file.sizes := by
  unfold write at written
  split at written
  · cases written
    exact sizes_putCell file index cell
  · cases written

theorem sizes_of_store {file after : RegisterFile} {slot : Slot} {value : Value}
    (stored : file.store slot value = .ok after) : after.sizes = file.sizes := by
  unfold store at stored
  split at stored
  · split at stored
    · next written =>
      cases stored
      exact sizes_of_write written
    · cases stored
  · cases stored

theorem sizes_of_storeOrKeep {file after : RegisterFile} {slot : Slot} {value : Value}
    (stored : file.storeOrKeep slot value = .ok after) : after.sizes = file.sizes := by
  unfold storeOrKeep at stored
  split at stored
  · next written =>
    cases stored
    exact sizes_of_store written
  · cases stored
    rfl
  · cases stored

theorem sizes_of_copySlot {file source after : RegisterFile} {index : Nat} {slot : Slot}
    (copied : file.copySlot index source slot = .ok after) : after.sizes = file.sizes := by
  unfold copySlot at copied
  split at copied
  · exact sizes_of_write copied
  · cases copied

/-! ## Accesses in range -/

theorem exists_cell?_of_lt {file : RegisterFile} {slot : Slot}
    (inRange : slot.index < file.sizes.get slot.bank) : ∃ cell, file.cell? slot = some cell := by
  have found : (file.cell? slot).isSome = true := by
    rw [isSome_cell?]
    exact decide_eq_true inRange
  exact Option.isSome_iff_exists.mp found

theorem cell?_of_not_lt {file : RegisterFile} {slot : Slot}
    (missing : ¬ slot.index < file.sizes.get slot.bank) : file.cell? slot = none := by
  have absent := isSome_cell? file slot
  rw [decide_eq_false missing] at absent
  simpa using absent

theorem get?_of_not_lt {file : RegisterFile} {slot : Slot}
    (missing : ¬ slot.index < file.sizes.get slot.bank) : file.get? slot = none := by
  simp [get?, cell?_of_not_lt missing]

theorem exists_load_of_lt {file : RegisterFile} {slot : Slot}
    (inRange : slot.index < file.sizes.get slot.bank) :
    ∃ value, file.load slot = .ok value ∧ value.bank = slot.bank := by
  obtain ⟨cell, found⟩ := exists_cell?_of_lt inRange
  refine ⟨cell.toValue, ?_, ?_⟩
  · simp [load, read, found, Except.map]
  · rw [Cell.bank_toValue]
    exact bank_of_cell? found

theorem store_eq_ok {file : RegisterFile} {slot : Slot} {value : Value}
    (sameBank : value.bank = slot.bank) (inRange : slot.index < file.sizes.get slot.bank) :
    file.store slot value = .ok (file.putCell slot.index (.ofValue value)) := by
  simp [store, write, sameBank, inRange]

/-- A store that succeeds puts a value of the right bank in a slot in range. -/
theorem of_store {file after : RegisterFile} {slot : Slot} {value : Value}
    (stored : file.store slot value = .ok after) :
    value.bank = slot.bank ∧ slot.index < file.sizes.get slot.bank ∧
      after = file.putCell slot.index (.ofValue value) := by
  by_cases sameBank : value.bank = slot.bank
  · by_cases inRange : slot.index < file.sizes.get slot.bank
    · rw [store_eq_ok sameBank inRange] at stored
      exact ⟨sameBank, inRange, (Except.ok.inj stored).symm⟩
    · simp [store, write, sameBank, inRange] at stored
  · simp [store, sameBank] at stored

theorem ext_cell? {left right : RegisterFile}
    (same : ∀ slot, left.cell? slot = right.cell? slot) : left = right := by
  have banks : ∀ {Content : Type} {first second : Array Content} {cell : Content → Cell},
      Function.Injective cell →
      (∀ index : Nat, first[index]?.map cell = second[index]?.map cell) → first = second := by
    intro Content first second cell injective agree
    exact Array.ext_getElem? fun index => Option.map_injective injective (agree index)
  have longs := banks (fun _ _ => Cell.long.inj) fun index => same ⟨.int, index⟩
  have doubles := banks (fun _ _ => Cell.double.inj) fun index => same ⟨.float, index⟩
  have strings := banks (fun _ _ => Cell.string.inj) fun index => same ⟨.text, index⟩
  have ints := banks (fun _ _ => Cell.int.inj) fun index => same ⟨.boolean, index⟩
  have blobs := banks (fun _ _ => Cell.blob.inj) fun index => same ⟨.blob, index⟩
  have refs := banks (fun _ _ => Cell.ref.inj) fun index => same ⟨.reference, index⟩
  cases left
  cases right
  simp only [mk.injEq]
  exact ⟨longs, doubles, strings, ints, blobs, refs⟩

end RegisterFile

namespace Marshalling

/-- Copying never changes the sizes of the target, also when it breaks off. -/
@[simp]
theorem sizes_copyAll (source : RegisterFile) (plan : List (Bank × Nat × Nat))
    (target : RegisterFile) : (copyAll source plan target).1.sizes = target.sizes := by
  induction plan generalizing target with
  | nil =>
      rfl
  | cons entry rest inductionHypothesis =>
      obtain ⟨bank, sourceIndex, targetIndex⟩ := entry
      unfold copyAll
      split
      · next copied =>
        rw [inductionHypothesis]
        exact RegisterFile.sizes_of_copySlot copied
      · rfl

@[simp]
theorem sizes_copyReturns (returns : Layout) (source : RegisterFile) (sourceIndices : List Nat)
    (target : RegisterFile) (targetIndices : List Nat) :
    (copyReturns returns source sourceIndices target targetIndices).1.sizes = target.sizes :=
  sizes_copyAll source _ target

/-! ## Copies from slot to slot -/

def origin (entry : Bank × Nat × Nat) : Slot := ⟨entry.1, entry.2.1⟩

def goal (entry : Bank × Nat × Nat) : Slot := ⟨entry.1, entry.2.2⟩

/-- What a file has become once some copies into it have all succeeded. -/
structure Copied (source : RegisterFile) (plan : List (Bank × Nat × Nat))
    (target after : RegisterFile) : Prop where
  sized : after.sizes = target.sizes
  /-- What no copy goes to is left alone. -/
  kept : ∀ slot, (∀ entry ∈ plan, goal entry ≠ slot) → after.cell? slot = target.cell? slot
  /-- The last copy to a slot decides what it holds. -/
  brought : ∀ before entry rest, plan = before ++ entry :: rest →
    (∀ later ∈ rest, goal later ≠ goal entry) →
      after.cell? (goal entry) = source.cell? (origin entry)

/-- Where no two copies go to the same slot, each slot holds what its copy brings. -/
theorem Copied.brought_of_nodup {source target after : RegisterFile} {plan : List (Bank × Nat × Nat)}
    (copied : Copied source plan target after) (distinct : (plan.map goal).Nodup)
    {entry : Bank × Nat × Nat} (member : entry ∈ plan) :
    after.cell? (goal entry) = source.cell? (origin entry) := by
  obtain ⟨before, rest, rfl⟩ := List.append_of_mem member
  refine copied.brought before entry rest rfl fun later inRest sameGoal => ?_
  rw [List.map_append, List.map_cons] at distinct
  refine (List.nodup_cons.mp (List.nodup_append.mp distinct).2.1).1 ?_
  exact sameGoal ▸ List.mem_map_of_mem inRest

/-- A copy between slots that exist takes the content over. -/
theorem copySlot_eq_ok {source target : RegisterFile} {entry : Bank × Nat × Nat} {cell : Cell}
    (found : source.cell? (origin entry) = some cell)
    (writable : (goal entry).index < target.sizes.get (goal entry).bank) :
    target.copySlot entry.2.2 source ⟨entry.1, entry.2.1⟩ =
      .ok (target.putCell entry.2.2 cell) := by
  have sameBank : cell.bank = entry.1 := RegisterFile.bank_of_cell? found
  change source.cell? ⟨entry.1, entry.2.1⟩ = some cell at found
  change entry.2.2 < target.sizes.get entry.1 at writable
  simp only [RegisterFile.copySlot, RegisterFile.read, RegisterFile.write, found, sameBank, writable,
    if_true]

theorem exists_copied {source target : RegisterFile} {plan : List (Bank × Nat × Nat)}
    (readable : ∀ entry ∈ plan, (origin entry).index < source.sizes.get (origin entry).bank)
    (writable : ∀ entry ∈ plan, (goal entry).index < target.sizes.get (goal entry).bank) :
    ∃ after, copyAll source plan target = (after, .ok ()) ∧ Copied source plan target after := by
  induction plan generalizing target with
  | nil =>
      refine ⟨target, rfl, rfl, fun _ _ => rfl, fun before entry rest never => ?_⟩
      exact absurd never.symm (List.append_ne_nil_of_right_ne_nil _ (List.cons_ne_nil _ _))
  | cons first others inductionHypothesis =>
      have firstWritable := writable first List.mem_cons_self
      obtain ⟨cell, found⟩ := RegisterFile.exists_cell?_of_lt (readable first List.mem_cons_self)
      have sameBank : cell.bank = first.1 := RegisterFile.bank_of_cell? found
      obtain ⟨after, copiedAll, copied⟩ := @inductionHypothesis (target.putCell first.2.2 cell)
        (fun entry member => readable entry (List.mem_cons_of_mem _ member))
        (fun entry member => by
          rw [RegisterFile.sizes_putCell]
          exact writable entry (List.mem_cons_of_mem _ member))
      have onceCopied : ∀ slot, (target.putCell first.2.2 cell).cell? slot =
          if slot = goal first then source.cell? (origin first) else target.cell? slot := by
        intro slot
        rw [RegisterFile.cell?_putCell, sameBank, found]
        exact ite_congr rfl (fun _ => if_pos firstWritable) fun _ => rfl
      refine ⟨after, ?_, ?_, fun slot elsewhere => ?_, fun before entry rest split isLast => ?_⟩
      · rw [copyAll, copySlot_eq_ok found firstWritable]
        exact copiedAll
      · rw [copied.sized, RegisterFile.sizes_putCell]
      · rw [copied.kept slot fun entry member => elsewhere entry (List.mem_cons_of_mem _ member),
          onceCopied, if_neg (elsewhere first List.mem_cons_self).symm]
      · cases before with
        | nil =>
            cases split
            rw [copied.kept _ isLast, onceCopied, if_pos rfl]
        | cons _ before =>
            cases split
            exact copied.brought before entry rest rfl isLast

/-- Where a copy goes to, there is a last one that goes there. -/
theorem exists_last {plan : List (Bank × Nat × Nat)} {entry : Bank × Nat × Nat}
    (member : entry ∈ plan) : ∃ before last rest, plan = before ++ last :: rest ∧
      goal last = goal entry ∧ ∀ later ∈ rest, goal later ≠ goal last := by
  induction plan using List.reverseRecOn with
  | nil =>
      cases member
  | append_singleton others final inductionHypothesis =>
      by_cases isLast : goal final = goal entry
      · exact ⟨others, final, [], rfl, isLast, fun _ never => absurd never List.not_mem_nil⟩
      · have inOthers : entry ∈ others := by
          rcases List.mem_append.mp member with among | same
          · exact among
          · exact absurd (congrArg goal (List.mem_singleton.mp same)).symm isLast
        obtain ⟨before, last, rest, split, sameGoal, noneLater⟩ := inductionHypothesis inOthers
        refine ⟨before, last, rest ++ [final], ?_, sameGoal, fun later inRest => ?_⟩
        · rw [split, List.append_assoc, List.cons_append]
        · rcases List.mem_append.mp inRest with among | same
          · exact noneLater later among
          · rw [List.mem_singleton.mp same, sameGoal]
            exact isLast

/-- Copying slots to the same slots of a file that has room for them gives each of these slots the
content of the source, and leaves all other slots alone. -/
theorem copyAll_slots (source : RegisterFile) (slots : List Slot) (target : RegisterFile)
    (readable : ∀ slot ∈ slots, slot.index < source.sizes.get slot.bank)
    (writable : ∀ slot ∈ slots, slot.index < target.sizes.get slot.bank) :
    ∃ after, copyAll source (slots.map fun slot => (slot.bank, slot.index, slot.index)) target =
        (after, .ok ()) ∧ after.sizes = target.sizes ∧
      ∀ slot, after.cell? slot =
        if slot ∈ slots then source.cell? slot else target.cell? slot := by
  obtain ⟨after, copiedAll, copied⟩ := @exists_copied source target
    (slots.map fun slot => (slot.bank, slot.index, slot.index))
    (fun entry member => by
      obtain ⟨slot, isSlot, rfl⟩ := List.mem_map.mp member
      exact readable slot isSlot)
    (fun entry member => by
      obtain ⟨slot, isSlot, rfl⟩ := List.mem_map.mp member
      exact writable slot isSlot)
  refine ⟨after, copiedAll, copied.sized, fun slot => ?_⟩
  split
  · next member =>
    obtain ⟨before, last, rest, split, sameGoal, noneLater⟩ := exists_last
      (List.mem_map_of_mem member : (slot.bank, slot.index, slot.index) ∈ slots.map fun slot =>
        (slot.bank, slot.index, slot.index))
    obtain ⟨own, _, isLast⟩ : ∃ own ∈ slots, (own.bank, own.index, own.index) = last := by
      rw [← List.mem_map, split]
      exact List.mem_append_right _ List.mem_cons_self
    have brought := copied.brought before last rest split noneLater
    rw [← isLast] at brought sameGoal
    obtain rfl : own = slot := sameGoal
    exact brought
  · next outside =>
    refine copied.kept slot (List.forall_mem_map.mpr fun own member same => ?_)
    obtain rfl : own = slot := same
    exact outside member

/-- Copies come to an end at an entry whose source does not exist. -/
theorem exists_error_of_copyAll {source : RegisterFile} {plan : List (Bank × Nat × Nat)}
    {entry : Bank × Nat × Nat} (member : entry ∈ plan)
    (unreadable : source.sizes.get entry.1 ≤ entry.2.1) (target : RegisterFile) :
    ∃ overrun, (copyAll source plan target).2 = .error overrun := by
  induction plan generalizing target with
  | nil =>
      cases member
  | cons first rest inductionHypothesis =>
      obtain ⟨bank, sourceIndex, targetIndex⟩ := first
      unfold copyAll
      split
      · next copied isCopied =>
        rcases List.mem_cons.mp member with rfl | inRest
        · have missing : source.cell? ⟨bank, sourceIndex⟩ = none :=
            RegisterFile.cell?_of_not_lt (Nat.not_lt.mpr unreadable)
          rw [RegisterFile.copySlot, RegisterFile.read, missing] at isCopied
          cases isCopied
        · exact inductionHypothesis inRest copied
      · next overrun _ =>
        exact ⟨overrun, rfl⟩

theorem exists_copyReturns_of_covers {returns : Layout} (sound : returns.Sound)
    {source target : RegisterFile} (roomy : source.sizes.covers returns.sizes = true)
    (targetSized : target.sizes = returns.sizes) :
    ∃ file, copyReturns returns source returns.indices target returns.indices = (file, .ok ()) ∧
      file.sizes = returns.sizes ∧
      ∀ slot ∈ returns.slots, file.cell? slot = source.cell? slot := by
  have covered := (BankSizes.covers_iff source.sizes returns.sizes).mp roomy
  obtain ⟨file, copied, sameSizes, content⟩ :=
    copyAll_slots source returns.slots target
      (fun slot member => Nat.lt_of_lt_of_le (sound.inRange slot member) (covered slot.bank))
      (fun slot member => by
        rw [targetSized]
        exact sound.inRange slot member)
  refine ⟨file, ?_, sameSizes.trans targetSized, fun slot member => ?_⟩
  · unfold copyReturns
    exact (congrArg (copyAll source · target) (Layout.deliveryPlan_eq returns.slots)).trans copied
  · rw [content, if_pos member]

theorem exists_copyReturns {returns : Layout} (sound : returns.Sound)
    {source target : RegisterFile} (sourceSized : source.sizes = returns.sizes)
    (targetSized : target.sizes = returns.sizes) :
    ∃ file, copyReturns returns source returns.indices target returns.indices = (file, .ok ()) ∧
      file.sizes = returns.sizes ∧
      ∀ slot ∈ returns.slots, file.cell? slot = source.cell? slot := by
  refine exists_copyReturns_of_covers sound ?_ targetSized
  rw [BankSizes.covers_iff, sourceSized]
  exact fun bank => Nat.le_refl _

theorem mem_slots_of_mem_deliveryPlan {slots : List Slot} {targetIndices : List Nat}
    {entry : Bank × Nat × Nat}
    (member : entry ∈ deliveryPlan (slots.map Slot.bank) (slots.map Slot.index) targetIndices) :
    (⟨entry.1, entry.2.1⟩ : Slot) ∈ slots := by
  induction slots generalizing targetIndices with
  | nil =>
      cases member
  | cons slot rest inductionHypothesis =>
      cases targetIndices with
      | nil =>
          cases member
      | cons target targets =>
          rcases List.mem_cons.mp member with rfl | inRest
          · exact List.mem_cons_self
          · exact List.mem_cons_of_mem _ (inductionHypothesis inRest)

/-- Copies from two files come to the same if the files have the same content wherever something is
read. -/
theorem copyAll_congr {first second : RegisterFile} {plan : List (Bank × Nat × Nat)}
    (same : ∀ entry ∈ plan, ∃ cell, first.cell? ⟨entry.1, entry.2.1⟩ = some cell ∧
      second.cell? ⟨entry.1, entry.2.1⟩ = some cell) (target : RegisterFile) :
    copyAll first plan target = copyAll second plan target := by
  induction plan generalizing target with
  | nil =>
      rfl
  | cons entry rest inductionHypothesis =>
      obtain ⟨bank, sourceIndex, targetIndex⟩ := entry
      obtain ⟨cell, inFirst, inSecond⟩ := same _ List.mem_cons_self
      have sameSlot : target.copySlot targetIndex first ⟨bank, sourceIndex⟩ =
          target.copySlot targetIndex second ⟨bank, sourceIndex⟩ := by
        simp only [RegisterFile.copySlot, RegisterFile.read, inFirst, inSecond]
      simp only [copyAll, sameSlot]
      cases target.copySlot targetIndex second ⟨bank, sourceIndex⟩ with
      | ok copied =>
          exact inductionHypothesis (fun other member => same other (List.mem_cons_of_mem _ member))
            copied
      | error overrun =>
          rfl

/-- A delivery looks at nothing but the slots that are returned. -/
theorem copyReturns_congr {returns : Layout} (sound : returns.Sound) {first second : RegisterFile}
    (firstRoomy : first.sizes.covers returns.sizes = true)
    (same : ∀ slot ∈ returns.slots, first.cell? slot = second.cell? slot)
    (target : RegisterFile) (targetIndices : List Nat) :
    copyReturns returns first returns.indices target targetIndices =
      copyReturns returns second returns.indices target targetIndices := by
  refine copyAll_congr (fun entry member => ?_) target
  have isReturned := mem_slots_of_mem_deliveryPlan member
  have covered := (BankSizes.covers_iff first.sizes returns.sizes).mp firstRoomy entry.1
  obtain ⟨cell, found⟩ := RegisterFile.exists_cell?_of_lt
    (Nat.lt_of_lt_of_le (sound.inRange _ isReturned) covered)
  exact ⟨cell, found, same _ isReturned ▸ found⟩

/-- Storing values in slots of their banks gives each slot its value and leaves all other slots
alone. -/
theorem exists_storeAll {slots : List Slot} {values : List Value} (position : Nat)
    (file : RegisterFile) (distinct : slots.Nodup)
    (sameBanks : values.map Value.bank = slots.map Slot.bank)
    (inRange : ∀ slot ∈ slots, slot.index < file.sizes.get slot.bank) :
    ∃ after, storeAll position slots values file = (after, .ok ()) ∧ after.sizes = file.sizes ∧
      (∀ slot, slot ∉ slots → after.cell? slot = file.cell? slot) ∧
      slots.map after.cell? = values.map fun value => some (Cell.ofValue value) := by
  induction slots generalizing values file position with
  | nil =>
      cases values with
      | nil =>
          exact ⟨file, rfl, rfl, fun _ _ => rfl, rfl⟩
      | cons value values =>
          cases sameBanks
  | cons slot slots inductionHypothesis =>
      cases values with
      | nil =>
          cases sameBanks
      | cons value values =>
          obtain ⟨sameBank, restBanks⟩ := List.cons.inj sameBanks
          obtain ⟨isNew, restDistinct⟩ := List.nodup_cons.mp distinct
          have writable := inRange slot List.mem_cons_self
          have stored := RegisterFile.store_eq_ok sameBank writable
          have bankOfCell : (Cell.ofValue value).bank = slot.bank := by
            rw [Cell.bank_ofValue]
            exact sameBank
          obtain ⟨after, storedAll, sameSizes, elsewhere, contents⟩ :=
            inductionHypothesis (position + 1) (file.putCell slot.index (.ofValue value))
              restDistinct restBanks (fun other member => by
                rw [RegisterFile.sizes_putCell]
                exact inRange other (List.mem_cons_of_mem _ member))
          refine ⟨after, ?_, ?_, fun other outside => ?_, ?_⟩
          · simp only [storeAll, stored]
            exact storedAll
          · rw [sameSizes, RegisterFile.sizes_putCell]
          · obtain ⟨isOther, outsideRest⟩ := not_or.mp fun inside =>
              outside (List.mem_cons.mpr inside)
            rw [elsewhere other outsideRest, RegisterFile.cell?_putCell, bankOfCell, if_neg isOther]
          · rw [List.map_cons, List.map_cons, contents, elsewhere slot isNew,
              RegisterFile.cell?_putCell, bankOfCell, if_pos rfl, if_pos writable]

/-- Storing values never changes the sizes of a file, also when it breaks off. -/
theorem sizes_storeAll (position : Nat) (slots : List Slot) (values : List Value)
    (file : RegisterFile) : (storeAll position slots values file).1.sizes = file.sizes := by
  induction slots generalizing values file position with
  | nil => rfl
  | cons slot slots inductionHypothesis =>
      cases values with
      | nil => rfl
      | cons value values =>
          unfold storeAll
          split
          · next stored =>
            rw [inductionHypothesis, RegisterFile.sizes_of_store stored]
          · rfl
          · rfl

theorem sizes_lower {params : Layout} {arguments : List Value} {file : RegisterFile}
    (lowered : lower params arguments = .ok file) : file.sizes = params.sizes := by
  have sameSizes : (lowerInto (.ofSizes params.sizes) params arguments).1.sizes = params.sizes := by
    unfold lowerInto
    split
    · rw [sizes_storeAll, RegisterFile.sizes_ofSizes]
    · exact RegisterFile.sizes_ofSizes _
  unfold lower at lowered
  split at lowered
  · next isLowered =>
    cases lowered
    rw [isLowered] at sameSizes
    exact sameSizes
  · cases lowered

/-- Lowered arguments stand in the slots of the parameters. -/
theorem exists_lower {params : Layout} (sound : params.Sound) {arguments : List Value}
    (matching : arguments.map Value.bank = params.banks) :
    ∃ file, lower params arguments = .ok file ∧ file.sizes = params.sizes ∧
      params.slots.map file.cell? = arguments.map fun value => some (Cell.ofValue value) := by
  have sameLength : params.length = arguments.length := by
    have lengths := congrArg List.length matching
    simpa [Layout.banks, Layout.length] using lengths.symm
  obtain ⟨file, stored, sameSizes, _, contents⟩ :=
    exists_storeAll 0 (.ofSizes params.sizes) sound.nodup matching (fun slot member => by
      rw [RegisterFile.sizes_ofSizes]
      exact sound.inRange slot member)
  refine ⟨file, ?_, ?_, contents⟩
  · simp only [lower, lowerInto, sameLength, if_true, stored]
  · rw [sameSizes, RegisterFile.sizes_ofSizes]

/-- Storing values breaks off at the first one that is not of the bank of its slot; the values before
it have been stored. -/
theorem exists_storeAll_of_mismatch {before after : List Slot} {firsts rest : List Value}
    {slot : Slot} {value : Value} (position : Nat) (file : RegisterFile)
    (agree : firsts.map Value.bank = before.map Slot.bank) (differs : value.bank ≠ slot.bank)
    (inRange : ∀ earlier ∈ before, earlier.index < file.sizes.get earlier.bank) :
    ∃ stored, storeAll position before firsts file = (stored, .ok ()) ∧
      storeAll position (before ++ slot :: after) (firsts ++ value :: rest) file =
        (stored, .error (.fault (.bankMismatch (position + before.length) slot.bank value.bank))) := by
  induction before generalizing firsts file position with
  | nil =>
      obtain rfl : firsts = [] := List.map_eq_nil_iff.mp agree
      have refused : file.store slot value = .error (.mismatch value.bank) := if_neg differs
      exact ⟨file, rfl, by simp [storeAll, refused]⟩
  | cons earlier before inductionHypothesis =>
      cases firsts with
      | nil =>
          cases agree
      | cons first firsts =>
          obtain ⟨sameBank, restAgree⟩ := List.cons.inj agree
          have stored := RegisterFile.store_eq_ok sameBank (inRange earlier List.mem_cons_self)
          obtain ⟨left, storedBefore, broken⟩ := inductionHypothesis (position + 1)
            (file.putCell earlier.index (.ofValue first)) restAgree fun other member => by
              rw [RegisterFile.sizes_putCell]
              exact inRange other (List.mem_cons_of_mem _ member)
          refine ⟨left, ?_, ?_⟩
          · rw [storeAll, stored]
            exact storedBefore
          · rw [List.cons_append, List.cons_append, storeAll, stored]
            simpa only [List.length_cons, Nat.add_assoc, Nat.add_comm 1] using broken

theorem exists_loadAll {file : RegisterFile} {slots : List Slot}
    (inRange : ∀ slot ∈ slots, slot.index < file.sizes.get slot.bank) :
    ∃ values, loadAll file slots = .ok values ∧ values.map some = slots.map file.get? := by
  induction slots with
  | nil =>
      exact ⟨[], rfl, rfl⟩
  | cons slot slots inductionHypothesis =>
      obtain ⟨cell, found⟩ :=
        RegisterFile.exists_cell?_of_lt (inRange slot List.mem_cons_self)
      obtain ⟨values, loaded, contents⟩ :=
        inductionHypothesis fun other member => inRange other (List.mem_cons_of_mem _ member)
      have loadedFirst : file.load slot = .ok cell.toValue := by
        simp [RegisterFile.load, RegisterFile.read, found, Except.map]
      refine ⟨cell.toValue :: values, ?_, ?_⟩
      · simp only [loadAll, loadedFirst, loaded, Except.map]
      · rw [List.map_cons, List.map_cons, contents]
        simp [RegisterFile.get?, found]

end Marshalling

/-- Delivering results never changes the sizes of the target. -/
@[simp]
theorem Response.sizes_deliverInto (response : Response) (target : RegisterFile)
    (indices : List Nat) : (response.deliverInto target indices).1.sizes = target.sizes :=
  Marshalling.sizes_copyReturns response.returns response.staged _ target indices

end WorkerMachine
