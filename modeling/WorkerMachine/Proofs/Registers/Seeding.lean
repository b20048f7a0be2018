import WorkerMachine.Proofs.Registers.Copying
/-!
# Seeding

Seeding counts the arguments of each bank with a cursor of its own.  In a layout that is numbered the
same way each argument therefore lands in the slot of its position, and as these slots are different
from each other, nothing that has landed is written again.  All other slots of the worker stay zero.
-/

namespace WorkerMachine

namespace Marshalling

variable {params : Layout} {locals : BankSizes} {source file : RegisterFile} {arguments : List Nat}

/-- What the registers of a worker hold once it has been seeded. -/
structure Seeded (params : Layout) (source : RegisterFile) (arguments : List Nat)
    (locals : BankSizes) (file : RegisterFile) : Prop where
  sized : file.sizes = locals
  /-- An argument is where the parameter of its position is. -/
  brought : ∀ (position : Nat) (slot : Slot) (argument : Nat), params.slots[position]? = some slot →
    arguments[position]? = some argument →
      argument < source.sizes.get slot.bank ∧
        file.cell? slot = source.cell? ⟨slot.bank, argument⟩
  /-- Slots without an argument are fresh. -/
  fresh : ∀ slot ∉ params.slots.take arguments.length,
    file.cell? slot = (RegisterFile.ofSizes locals).cell? slot

theorem seedPlan_eq {slots : List Slot} {used : BankSizes}
    (counted : seedPlan used (slots.map Slot.bank) (slots.map Slot.index) =
      slots.map fun slot => (slot.bank, slot.index, slot.index)) (arguments : List Nat) :
    seedPlan used (slots.map Slot.bank) arguments =
      List.zipWith (fun slot argument => (slot.bank, argument, slot.index)) slots arguments := by
  induction slots generalizing used arguments with
  | nil => rfl
  | cons slot slots inductionHypothesis =>
      obtain ⟨sameFirst, sameOthers⟩ := List.cons.inj counted
      have placed : used.get slot.bank = slot.index := by
        simpa using congrArg (fun entry => entry.2.2) sameFirst
      cases arguments with
      | nil => rfl
      | cons argument arguments =>
          rw [List.map_cons, seedPlan, List.zipWith_cons_cons, placed,
            inductionHypothesis sameOthers]

/-- The copies go to the slots in their order, as far as there are arguments. -/
theorem map_goal_zipWith (slots : List Slot) (arguments : List Nat) :
    (List.zipWith (fun slot argument => (slot.bank, argument, slot.index)) slots arguments).map goal =
      slots.take arguments.length := by
  induction slots generalizing arguments with
  | nil => rw [List.zipWith_nil_left, List.map_nil, List.take_nil]
  | cons slot slots inductionHypothesis =>
      cases arguments with
      | nil => rfl
      | cons argument arguments =>
          exact congrArg (slot :: ·) (inductionHypothesis arguments)

/-- The copies that seeding makes, position by position. -/
theorem getElem?_seedPlan (sound : params.Sound) {position : Nat} {entry : Bank × Nat × Nat} :
    (seedPlan .zero params.banks arguments)[position]? = some entry ↔
      ∃ slot argument, params.slots[position]? = some slot ∧
        arguments[position]? = some argument ∧ (slot.bank, argument, slot.index) = entry := by
  rw [Layout.banks, seedPlan_eq sound.counted, List.getElem?_zipWith_eq_some]

theorem map_goal_seedPlan (sound : params.Sound) :
    (seedPlan .zero params.banks arguments).map goal = params.slots.take arguments.length := by
  rw [Layout.banks, seedPlan_eq sound.counted, map_goal_zipWith]

theorem Copied.seeded (sound : params.Sound)
    (readable : ∀ entry ∈ seedPlan .zero params.banks arguments,
      (origin entry).index < source.sizes.get (origin entry).bank)
    (copied : Copied source (seedPlan .zero params.banks arguments) (.ofSizes locals) file) :
    Seeded params source arguments locals file := by
  have goals := @map_goal_seedPlan params arguments sound
  refine ⟨copied.sized.trans (RegisterFile.sizes_ofSizes locals),
    fun position slot argument isSlot isArgument => ?_, fun slot outside => ?_⟩
  · have member := List.mem_of_getElem?
      ((getElem?_seedPlan sound).mpr ⟨slot, argument, isSlot, isArgument, rfl⟩)
    have distinct : ((seedPlan .zero params.banks arguments).map goal).Nodup :=
      goals ▸ sound.nodup.sublist (List.take_sublist _ _)
    exact ⟨readable _ member, copied.brought_of_nodup distinct member⟩
  · refine copied.kept slot fun entry member isGoal => outside ?_
    exact goals ▸ isGoal ▸ List.mem_map_of_mem member

theorem exists_seeded (sound : params.Sound)
    (readable : ∀ entry ∈ params.banks.zip arguments, entry.2 < source.sizes.get entry.1)
    (roomy : ∀ bank, params.sizes.get bank ≤ locals.get bank) :
    ∃ file, seed locals params source arguments = .ok file ∧
      Seeded params source arguments locals file := by
  have isRead : ∀ entry ∈ seedPlan .zero params.banks arguments,
      (origin entry).index < source.sizes.get (origin entry).bank := by
    intro entry member
    obtain ⟨position, isEntry⟩ := List.mem_iff_getElem?.mp member
    obtain ⟨slot, argument, isSlot, isArgument, rfl⟩ := (getElem?_seedPlan sound).mp isEntry
    have zipped : (params.banks.zip arguments)[position]? = some (slot.bank, argument) :=
      List.getElem?_zip_eq_some.mpr ⟨by simp [Layout.banks, isSlot], isArgument⟩
    exact readable _ (List.mem_of_getElem? zipped)
  have isWritten : ∀ entry ∈ seedPlan .zero params.banks arguments,
      (goal entry).index < (RegisterFile.ofSizes locals).sizes.get (goal entry).bank := by
    intro entry member
    have isSlot : goal entry ∈ params.slots := by
      refine List.mem_of_mem_take (?_ : goal entry ∈ params.slots.take arguments.length)
      exact map_goal_seedPlan sound ▸ List.mem_map_of_mem member
    rw [RegisterFile.sizes_ofSizes]
    exact Nat.lt_of_lt_of_le (sound.inRange _ isSlot) (roomy _)
  obtain ⟨file, copiedAll, copied⟩ := exists_copied isRead isWritten
  exact ⟨file, by rw [seed, copiedAll], copied.seeded sound isRead⟩

/-- Seeding with the slots of the parameters themselves copies each of them to the same slot. -/
theorem exists_seed (sound : params.Sound) (roomy : ∀ bank, params.sizes.get bank ≤ locals.get bank)
    (sized : source.sizes = params.sizes) :
    ∃ file, seed locals params source params.indices = .ok file ∧ file.sizes = locals ∧
      ∀ slot, file.cell? slot = if slot ∈ params.slots then source.cell? slot
        else (RegisterFile.ofSizes locals).cell? slot := by
  have readable : ∀ entry ∈ params.banks.zip params.indices,
      entry.2 < source.sizes.get entry.1 := by
    intro entry member
    rw [Layout.banks, Layout.indices, List.zip_map', List.mem_map] at member
    obtain ⟨slot, isSlot, rfl⟩ := member
    rw [sized]
    exact sound.inRange slot isSlot
  obtain ⟨file, isSeed, seeded⟩ := exists_seeded sound readable roomy
  refine ⟨file, isSeed, seeded.sized, fun slot => ?_⟩
  split
  · next member =>
    obtain ⟨position, isSlot⟩ := List.mem_iff_getElem?.mp member
    exact (seeded.brought position slot slot.index isSlot (by simp [Layout.indices, isSlot])).2
  · next outside =>
    exact seeded.fresh slot fun member => outside (List.mem_of_mem_take member)

theorem sizes_seed (seeded : seed locals params source arguments = .ok file) :
    file.sizes = locals := by
  unfold seed at seeded
  split at seeded
  · next copied =>
    cases seeded
    have sameSizes := sizes_copyAll source (seedPlan .zero params.banks arguments) (.ofSizes locals)
    rw [copied, RegisterFile.sizes_ofSizes] at sameSizes
    exact sameSizes
  · cases seeded

theorem exists_mem_seedPlan {banks : List Bank} {indices : List Nat} {bank : Bank} {index : Nat}
    (member : (bank, index) ∈ banks.zip indices) (used : BankSizes) :
    ∃ target, (bank, index, target) ∈ seedPlan used banks indices := by
  induction banks generalizing indices used with
  | nil =>
      cases member
  | cons first rest inductionHypothesis =>
      cases indices with
      | nil =>
          cases member
      | cons firstIndex restIndices =>
          rcases List.mem_cons.mp member with same | inRest
          · cases same
            exact ⟨_, List.mem_cons_self⟩
          · obtain ⟨target, planned⟩ := inductionHypothesis inRest (used.grow first)
            exact ⟨target, List.mem_cons_of_mem _ planned⟩

theorem exists_error_of_seed {entry : Bank × Nat} (member : entry ∈ params.banks.zip arguments)
    (unreadable : source.sizes.get entry.1 ≤ entry.2) (locals : BankSizes) :
    ∃ overrun, seed locals params source arguments = .error overrun := by
  obtain ⟨target, planned⟩ := exists_mem_seedPlan member .zero
  obtain ⟨overrun, failed⟩ := exists_error_of_copyAll planned unreadable (.ofSizes locals)
  refine ⟨overrun, ?_⟩
  unfold seed
  split
  · next copied => rw [copied] at failed; cases failed
  · next copied => rw [copied] at failed; cases failed; rfl

theorem exists_seed_of_readable (sound : params.Sound)
    (readable : ∀ entry ∈ params.banks.zip arguments, entry.2 < source.sizes.get entry.1)
    (roomy : ∀ bank, params.sizes.get bank ≤ locals.get bank) :
    ∃ own, seed locals params source arguments = .ok own :=
  (exists_seeded sound readable roomy).imp fun _ seeded => seeded.1

/-- If one worker can be seeded with arguments, then so can every worker that has room for the
parameters. -/
theorem exists_seed_of_seed (sound : params.Sound) {others : BankSizes}
    (seeded : seed others params source arguments = .ok file)
    (roomy : ∀ bank, params.sizes.get bank ≤ locals.get bank) :
    ∃ own, seed locals params source arguments = .ok own := by
  refine exists_seed_of_readable sound (fun entry member => ?_) roomy
  refine Nat.lt_of_not_le fun unreadable => ?_
  obtain ⟨overrun, failed⟩ := exists_error_of_seed member unreadable others
  rw [failed] at seeded
  cases seeded

end Marshalling

/-- Every worker of a unit that has been built is seeded with any arguments that exist, whatever room has
been declared for it: its registers are as large as the worker says, each slot of the parameters holds
what its argument holds, and all other slots are zero. -/
theorem worker_seeded_as_laid_out {package name : String} {kind : UnitKind}
    {params returns : List DataType} {declared : List (String × BankSizes)} {unit : Callable}
    (built : Callable.build package name kind params returns declared = .ok unit)
    {worker : Worker} (member : worker ∈ unit.workers) {source : RegisterFile} {arguments : List Nat}
    (complete : arguments.length = unit.params.length)
    (readable : ∀ entry ∈ unit.params.banks.zip arguments, entry.2 < source.sizes.get entry.1) :
    ∃ file, Marshalling.seed worker.locals unit.params source arguments = .ok file ∧
      file.sizes = worker.locals ∧
      (∀ (position : Nat) (slot : Slot), unit.params.slots[position]? = some slot →
        ∃ argument cell, arguments[position]? = some argument ∧
          source.cell? ⟨slot.bank, argument⟩ = some cell ∧ file.cell? slot = some cell) ∧
      ∀ slot ∉ unit.params.slots, slot.index < worker.locals.get slot.bank →
        file.cell? slot = some (.zeroOf slot.bank) := by
  have sound := Callable.sound_of_build built
  obtain ⟨file, isSeed, seeded⟩ :=
    Marshalling.exists_seeded sound.params readable (sound.roomy worker member)
  refine ⟨file, isSeed, seeded.sized, fun position slot isSlot => ?_, fun slot outside inRange => ?_⟩
  · have inside : position < arguments.length := by
      rw [complete, Layout.length]
      exact (List.getElem?_eq_some_iff.mp isSlot).1
    have isArgument := List.getElem?_eq_getElem inside
    obtain ⟨isRead, sameCell⟩ := seeded.brought position slot _ isSlot isArgument
    obtain ⟨cell, found⟩ :=
      @RegisterFile.exists_cell?_of_lt source ⟨slot.bank, arguments[position]⟩ isRead
    exact ⟨_, cell, isArgument, found, sameCell.trans found⟩
  · rw [seeded.fresh slot fun taken => outside (List.mem_of_mem_take taken),
      RegisterFile.cell?_ofSizes, if_pos inRange]

/-- A worker that has been declared with too little room for two integers is seeded with one slot twice,
and a worker that has more room keeps zeros beyond them. -/
theorem worker_seeded_as_laid_out_of_repeated :
    let declared : List (String × BankSizes) := [("small", { longs := 1 }), ("large", { longs := 3 })]
    let params : Layout := ⟨[.int, .boolean, .int], [⟨.int, 0⟩, ⟨.boolean, 0⟩, ⟨.int, 1⟩],
      { longs := 2, ints := 1 }⟩
    let small : Worker := ⟨"small", 0, { longs := 2, ints := 1 }⟩
    let large : Worker := ⟨"large", 1, { longs := 3, ints := 1 }⟩
    let unit : Callable := ⟨"package", "unit", .function, params, .empty, small, [large]⟩
    let source : RegisterFile := { longs := #[6, 7], ints := #[1] }
    Callable.build "package" "unit" .function params.types [] declared = .ok unit ∧
      (∃ file, Marshalling.seed small.locals params source [1, 0, 1] = .ok file ∧
        file.sizes = small.locals ∧ file.cell? ⟨.int, 0⟩ = some (.long 7) ∧
        file.cell? ⟨.int, 1⟩ = some (.long 7)) ∧
      ∃ file, Marshalling.seed large.locals params source [1, 0, 1] = .ok file ∧
        file.sizes = large.locals ∧ file.cell? ⟨.int, 2⟩ = some (.long 0) := by
  intro declared params small large unit source
  have built : Callable.build "package" "unit" .function params.types [] declared = .ok unit := rfl
  have inSmall : small ∈ unit.workers := by decide
  have inLarge : large ∈ unit.workers := by decide
  have readable : ∀ entry ∈ unit.params.banks.zip [1, 0, 1], entry.2 < source.sizes.get entry.1 := by
    decide
  obtain ⟨file, seeded, sized, brought, _⟩ := worker_seeded_as_laid_out built inSmall rfl readable
  obtain ⟨other, otherSeeded, otherSized, _, fresh⟩ :=
    worker_seeded_as_laid_out built inLarge rfl readable
  refine ⟨built, ⟨file, seeded, sized, ?_, ?_⟩, other, otherSeeded, otherSized,
    fresh ⟨.int, 2⟩ (by decide) (by decide)⟩
  · obtain ⟨argument, cell, isArgument, found, holds⟩ := brought 0 ⟨.int, 0⟩ rfl
    cases isArgument
    cases found
    exact holds
  · obtain ⟨argument, cell, isArgument, found, holds⟩ := brought 2 ⟨.int, 1⟩ rfl
    cases isArgument
    cases found
    exact holds

end WorkerMachine
