import WorkerMachine.Proofs.Registers.Boxing
/-!
# Zeros and ones in register files

Whatever is done to register files whose slots of booleans hold nothing but zeros and ones, they hold
nothing else afterwards.  For such a file, and for no other, it makes no difference whether a slot is
loaded as a value and stored again or copied raw.
-/

namespace WorkerMachine

/-! ## Two ways to travel -/

/-- Content that is copied raw to any slot of any file is what would be stored there if it were loaded
as a value, also where one of the slots does not exist. -/
def RegisterFile.TravelsAlike (source : RegisterFile) : Prop :=
  ∀ (target : RegisterFile) (index : Nat) (slot : Slot),
    target.copySlot index source slot =
      (source.load slot).bind fun value => target.storeOrKeep ⟨slot.bank, index⟩ value

namespace RegisterFile

variable {file source target after : RegisterFile} {slot : Slot} {value : Value} {index : Nat}
  {cell : Cell}

theorem storeOrKeep_of_bank {bank : Bank} (sameBank : value.bank = bank) :
    file.storeOrKeep ⟨bank, index⟩ value = file.write index (.ofValue value) := by
  unfold storeOrKeep store
  rw [if_pos sameBank]
  dsimp only
  cases file.write index (.ofValue value) <;> rfl

/-- From a file with zeros and ones content travels alike on both ways. -/
theorem HasTruths.travelsAlike (truths : source.HasTruths) : source.TravelsAlike := by
  intro target index slot
  cases found : source.cell? slot with
  | none =>
      simp only [copySlot, load, read, found, Except.map, Except.bind]
  | some cell =>
      have sameBank : cell.toValue.bank = slot.bank := by
        rw [Cell.bank_toValue]
        exact bank_of_cell? found
      simp only [copySlot, load, read, found, Except.map, Except.bind]
      rw [storeOrKeep_of_bank sameBank, truths.ofValue_toValue found]

/-- Only from a file with zeros and ones content travels alike on both ways: anything else is lost
when it is loaded. -/
theorem TravelsAlike.hasTruths (alike : source.TravelsAlike) : source.HasTruths := by
  intro number member
  obtain ⟨index, isNumber⟩ := Array.mem_iff_getElem?.mp member
  have found : source.cell? ⟨.boolean, index⟩ = some (.int number) := by
    simp [cell?, isNumber]
  have writes : ∀ number : Int32, (RegisterFile.ofSizes { ints := 1 }).write 0 (.int number) =
      .ok { RegisterFile.ofSizes { ints := 1 } with ints := #[number] } :=
    fun _ => rfl
  have same := alike (.ofSizes { ints := 1 }) 0 ⟨.boolean, index⟩
  have sameBank : (Cell.int number).toValue.bank = Bank.boolean := Cell.bank_toValue _
  simp only [copySlot, load, read, found, Except.map, Except.bind] at same
  rw [storeOrKeep_of_bank sameBank, Cell.toValue, Cell.ofValue, writes, writes] at same
  have sameNumber : number = if (number == 1) = true then 1 else 0 := by
    simpa using same
  rw [sameNumber]
  split
  · exact .inr rfl
  · exact .inl rfl

theorem travelsAlike_iff : source.TravelsAlike ↔ source.HasTruths :=
  ⟨TravelsAlike.hasTruths, HasTruths.travelsAlike⟩

/-! ## What is done to files -/

theorem hasTruths_empty : empty.HasTruths :=
  fun _ member => absurd member (Array.not_mem_empty _)

theorem HasTruths.putCell (truths : file.HasTruths)
    (isTruth : ∀ number, cell = .int number → number = 0 ∨ number = 1) :
    (file.putCell index cell).HasTruths := by
  cases cell with
  | int number =>
      intro other member
      obtain isOld | rfl := Array.mem_or_eq_of_mem_setIfInBounds member
      · exact truths other isOld
      · exact isTruth _ rfl
  | _ => exact truths

theorem HasTruths.write (truths : file.HasTruths)
    (isTruth : ∀ number, cell = .int number → number = 0 ∨ number = 1)
    (written : file.write index cell = .ok after) : after.HasTruths := by
  unfold RegisterFile.write at written
  split at written
  · cases written
    exact truths.putCell isTruth
  · cases written

/-- A value is stored as a zero or a one, if it is a boolean. -/
theorem HasTruths.storeOrKeep (truths : file.HasTruths)
    (stored : file.storeOrKeep slot value = .ok after) : after.HasTruths := by
  by_cases sameBank : value.bank = slot.bank
  · have written := (storeOrKeep_of_bank sameBank).symm.trans stored
    refine truths.write (fun number isInt => ?_) written
    cases value with
    | boolean truth =>
        cases isInt
        cases truth
        · exact .inl rfl
        · exact .inr rfl
    | _ => cases isInt
  · unfold RegisterFile.storeOrKeep store at stored
    rw [if_neg sameBank] at stored
    cases stored
    exact truths

theorem HasTruths.store (truths : file.HasTruths) (stored : file.store slot value = .ok after) :
    after.HasTruths := by
  refine truths.storeOrKeep (?_ : file.storeOrKeep slot value = .ok after)
  unfold RegisterFile.storeOrKeep
  rw [stored]

theorem HasTruths.copySlot (truths : target.HasTruths) (sourceTruths : source.HasTruths)
    (copied : target.copySlot index source slot = .ok after) : after.HasTruths := by
  rw [sourceTruths.travelsAlike] at copied
  cases loaded : source.load slot with
  | error overrun =>
      rw [loaded] at copied
      cases copied
  | ok value =>
      rw [loaded] at copied
      exact truths.storeOrKeep copied

end RegisterFile

namespace Marshalling

variable {source target file : RegisterFile}

theorem copyAll_hasTruths (sourceTruths : source.HasTruths) (plan : List (Bank × Nat × Nat))
    (truths : target.HasTruths) : (copyAll source plan target).1.HasTruths := by
  induction plan generalizing target with
  | nil =>
      exact truths
  | cons entry rest inductionHypothesis =>
      obtain ⟨bank, sourceIndex, targetIndex⟩ := entry
      unfold copyAll
      split
      · next copied =>
        exact inductionHypothesis (truths.copySlot sourceTruths copied)
      · exact truths

theorem seed_hasTruths (sourceTruths : source.HasTruths) {locals : BankSizes} {params : Layout}
    {arguments : List Nat} (seeded : seed locals params source arguments = .ok file) :
    file.HasTruths := by
  have truths := copyAll_hasTruths sourceTruths (seedPlan .zero params.banks arguments)
    (RegisterFile.hasTruths_ofSizes locals)
  unfold seed at seeded
  split at seeded
  · next copied =>
    cases seeded
    rw [copied] at truths
    exact truths
  · cases seeded

theorem storeAll_hasTruths (slots : List Slot) (values : List Value) (position : Nat)
    (truths : file.HasTruths) : (storeAll position slots values file).1.HasTruths := by
  induction slots generalizing values file position with
  | nil =>
      exact truths
  | cons slot slots inductionHypothesis =>
      cases values with
      | nil =>
          exact truths
      | cons value values =>
          unfold storeAll
          split
          · next stored =>
            exact inductionHypothesis values (position + 1) (truths.store stored)
          · exact truths
          · exact truths

theorem lower_hasTruths {params : Layout} {arguments : List Value}
    (lowered : lower params arguments = .ok file) : file.HasTruths := by
  have truths : (lowerInto (.ofSizes params.sizes) params arguments).1.HasTruths := by
    unfold lowerInto
    split
    · exact storeAll_hasTruths _ _ _ (RegisterFile.hasTruths_ofSizes _)
    · exact RegisterFile.hasTruths_ofSizes _
  unfold lower at lowered
  split at lowered
  · next isLowered =>
    cases lowered
    rw [isLowered] at truths
    exact truths
  · cases lowered

end Marshalling

/-! ## Responses -/

namespace Response

variable {response : Response} {result target : RegisterFile}

theorem deliverInto_hasTruths (staged : response.staged.HasTruths) (truths : target.HasTruths)
    (indices : List Nat) : (response.deliverInto target indices).1.HasTruths :=
  Marshalling.copyAll_hasTruths staged _ truths

theorem stage_hasTruths (staged : response.staged.HasTruths) (truths : result.HasTruths) :
    (response.stage result).1.staged.HasTruths := by
  have copied := Marshalling.copyAll_hasTruths truths
    (Marshalling.deliveryPlan response.returns.banks response.returns.indices
      response.returns.indices) staged
  unfold stage
  split
  · exact staged
  · dsimp only
    split
    · next isCopied =>
      rw [Marshalling.copyReturns] at isCopied
      rw [isCopied] at copied
      exact copied
    · next isCopied =>
      rw [Marshalling.copyReturns] at isCopied
      rw [isCopied] at copied
      exact copied

theorem contribute_hasTruths (staged : response.staged.HasTruths) (truths : result.HasTruths)
    (worker : ContextId) (outcome : WorkerOutcome) :
    (response.contribute worker outcome result).1.staged.HasTruths := by
  have recorded : ((response.enlist worker).record outcome result).1.staged.HasTruths := by
    cases outcome with
    | returned => exact stage_hasTruths staged truths
    | _ => exact staged
  have settled : ∀ other : Response, other.staged.HasTruths → other.settle.1.staged.HasTruths := by
    intro other otherStaged
    unfold settle
    dsimp only
    split
    · exact otherStaged
    · exact otherStaged
  unfold contribute
  split
  · split
    · next isRecorded =>
      rw [isRecorded] at recorded
      exact settled _ recorded
    · next isRecorded =>
      rw [isRecorded] at recorded
      exact recorded
  · exact staged

end Response

end WorkerMachine
