import WorkerMachine.Program.Callable
import WorkerMachine.Registers.Marshalling
/-!
# Slots of layouts

The slots of a layout are different from each other and in range, and they are numbered exactly as
the calling convention counts the arguments of each bank.
-/

namespace WorkerMachine

namespace Layout

/-- What is true of the layout of every signature. -/
structure Sound (layout : Layout) : Prop where
  nodup : layout.slots.Nodup
  inRange : ∀ slot ∈ layout.slots, slot.index < layout.sizes.get slot.bank
  /-- Arguments are counted as they are placed. -/
  counted : Marshalling.seedPlan .zero layout.banks layout.indices =
    layout.slots.map fun slot => (slot.bank, slot.index, slot.index)

/-- The first slot is the next free one of its bank, and the other slots follow on it. -/
theorem exists_of_assign_cons {used final : BankSizes} {type : DataType} {rest : List DataType}
    {slots : List Slot} (assigned : assign used (type :: rest) = .ok (slots, final)) :
    ∃ bank others, type.bank? = some bank ∧ slots = ⟨bank, used.get bank⟩ :: others ∧
      assign (used.grow bank) rest = .ok (others, final) := by
  unfold assign at assigned
  split at assigned
  · cases assigned
  · next bank banked =>
    split at assigned
    · cases assigned
    · next others restFinal restAssigned =>
      cases assigned
      exact ⟨bank, others, banked, rfl, restAssigned⟩

theorem get_le_get_of_assign {used final : BankSizes} {types : List DataType} {slots : List Slot}
    (assigned : assign used types = .ok (slots, final)) (bank : Bank) :
    used.get bank ≤ final.get bank := by
  induction types generalizing used slots with
  | nil =>
      cases assigned
      exact Nat.le_refl _
  | cons type rest inductionHypothesis =>
      obtain ⟨own, others, _, rfl, restAssigned⟩ := exists_of_assign_cons assigned
      have grown := inductionHypothesis restAssigned
      rw [BankSizes.get_grow] at grown
      omega

theorem range_of_assign {used final : BankSizes} {types : List DataType} {slots : List Slot}
    (assigned : assign used types = .ok (slots, final)) :
    ∀ slot ∈ slots, used.get slot.bank ≤ slot.index ∧ slot.index < final.get slot.bank := by
  induction types generalizing used slots with
  | nil =>
      cases assigned
      intro slot member
      cases member
  | cons type rest inductionHypothesis =>
      obtain ⟨own, others, _, rfl, restAssigned⟩ := exists_of_assign_cons assigned
      intro slot member
      rcases List.mem_cons.mp member with rfl | inRest
      · have grown := get_le_get_of_assign restAssigned own
        rw [BankSizes.get_grow, if_pos rfl] at grown
        exact ⟨Nat.le_refl _, grown⟩
      · obtain ⟨above, below⟩ := inductionHypothesis restAssigned slot inRest
        rw [BankSizes.get_grow] at above
        exact ⟨by omega, below⟩

theorem mem_of_assign {used final : BankSizes} {types : List DataType} {slots : List Slot}
    (assigned : assign used types = .ok (slots, final)) {slot : Slot}
    (unused : used.get slot.bank ≤ slot.index) (inRange : slot.index < final.get slot.bank) :
    slot ∈ slots := by
  induction types generalizing used slots with
  | nil =>
      cases assigned
      exact absurd unused (Nat.not_le.mpr inRange)
  | cons type rest inductionHypothesis =>
      obtain ⟨own, others, _, rfl, restAssigned⟩ := exists_of_assign_cons assigned
      by_cases isFirst : slot = ⟨own, used.get own⟩
      · exact List.mem_cons.mpr (.inl isFirst)
      · refine List.mem_cons_of_mem _ (inductionHypothesis restAssigned ?_)
        rw [BankSizes.get_grow]
        split
        · next sameBank =>
          have isOther : slot.index ≠ used.get slot.bank := fun sameIndex =>
            isFirst (by rw [sameBank, ← sameIndex])
          omega
        · exact unused

/-- Every type has got a slot of its own bank. -/
theorem banks_of_assign {used final : BankSizes} {types : List DataType} {slots : List Slot}
    (assigned : assign used types = .ok (slots, final)) :
    types.map DataType.bank? = (slots.map Slot.bank).map some := by
  induction types generalizing used slots with
  | nil =>
      cases assigned
      rfl
  | cons type rest inductionHypothesis =>
      obtain ⟨own, others, banked, rfl, restAssigned⟩ := exists_of_assign_cons assigned
      simp only [List.map_cons, banked, inductionHypothesis restAssigned]

theorem nodup_of_assign {used final : BankSizes} {types : List DataType} {slots : List Slot}
    (assigned : assign used types = .ok (slots, final)) : slots.Nodup := by
  induction types generalizing used slots with
  | nil =>
      cases assigned
      exact List.nodup_nil
  | cons type rest inductionHypothesis =>
      obtain ⟨own, others, _, rfl, restAssigned⟩ := exists_of_assign_cons assigned
      refine List.nodup_cons.mpr ⟨fun member => ?_, inductionHypothesis restAssigned⟩
      obtain ⟨above, _⟩ := range_of_assign restAssigned _ member
      rw [BankSizes.get_grow, if_pos rfl] at above
      change used.get own + 1 ≤ used.get own at above
      omega

theorem seedPlan_of_assign {used final : BankSizes} {types : List DataType} {slots : List Slot}
    (assigned : assign used types = .ok (slots, final)) :
    Marshalling.seedPlan used (slots.map Slot.bank) (slots.map Slot.index) =
      slots.map fun slot => (slot.bank, slot.index, slot.index) := by
  induction types generalizing used slots with
  | nil =>
      cases assigned
      rfl
  | cons type rest inductionHypothesis =>
      obtain ⟨own, others, _, rfl, restAssigned⟩ := exists_of_assign_cons assigned
      simp only [List.map_cons, Marshalling.seedPlan]
      rw [inductionHypothesis restAssigned]

/-- The slots of a layout are those assigned to banks that are empty at first. -/
theorem assign_of_ofTypes {types : List DataType} {layout : Layout}
    (laidOut : ofTypes types = .ok layout) :
    assign .zero types = .ok (layout.slots, layout.sizes) := by
  unfold ofTypes at laidOut
  split at laidOut
  · cases laidOut
  · next slots sizes assigned =>
    cases laidOut
    exact assigned

theorem sound_of_ofTypes {types : List DataType} {layout : Layout}
    (laidOut : ofTypes types = .ok layout) : layout.Sound :=
  have assigned := assign_of_ofTypes laidOut
  { nodup := nodup_of_assign assigned
    inRange := fun slot member => (range_of_assign assigned slot member).2
    counted := seedPlan_of_assign assigned }

theorem mem_slots_iff {types : List DataType} {layout : Layout}
    (laidOut : ofTypes types = .ok layout) (slot : Slot) :
    slot ∈ layout.slots ↔ slot.index < layout.sizes.get slot.bank := by
  refine ⟨(sound_of_ofTypes laidOut).inRange slot, mem_of_assign (assign_of_ofTypes laidOut) ?_⟩
  rw [BankSizes.get_zero]
  exact Nat.zero_le _

theorem deliveryPlan_eq (slots : List Slot) :
    Marshalling.deliveryPlan (slots.map Slot.bank) (slots.map Slot.index) (slots.map Slot.index) =
      slots.map fun slot => (slot.bank, slot.index, slot.index) := by
  induction slots with
  | nil =>
      rfl
  | cons slot rest inductionHypothesis =>
      simp only [List.map_cons, Marshalling.deliveryPlan]
      rw [inductionHypothesis]

end Layout

namespace Callable

/-- What is true of every unit that has been built. -/
structure Sound (unit : Callable) : Prop where
  params : unit.params.Sound
  returns : unit.returns.Sound
  /-- Every worker has room for the parameters. -/
  roomy : ∀ worker ∈ unit.workers, ∀ bank,
    unit.params.sizes.get bank ≤ worker.locals.get bank

theorem roomy_of_numberWorkers {params : BankSizes} {index : Nat}
    {declared : List (String × BankSizes)} {worker : Worker}
    (member : worker ∈ numberWorkers params index declared) (bank : Bank) :
    params.get bank ≤ worker.locals.get bank := by
  induction declared generalizing index with
  | nil =>
      cases member
  | cons first rest inductionHypothesis =>
      obtain ⟨name, locals⟩ := first
      rcases List.mem_cons.mp member with rfl | inRest
      · rw [BankSizes.get_max]
        exact Nat.le_max_right _ _
      · exact inductionHypothesis inRest

structure BuiltFrom (unit : Callable) (package name : String) (kind : UnitKind)
    (params returns : List DataType) (declared : List (String × BankSizes)) : Prop where
  package : unit.package = package
  name : unit.name = name
  kind : unit.kind = kind
  params : Layout.ofTypes params = .ok unit.params
  returns : Layout.ofTypes returns = .ok unit.returns
  /-- The declared workers are numbered, and where none is declared there is one all the same. -/
  workers : unit.workers = match declared with
    | [] => [⟨defaultWorkerName, 0, unit.params.sizes⟩]
    | _ :: _ => numberWorkers unit.params.sizes 0 declared

theorem builtFrom_of_build {package name : String} {kind : UnitKind}
    {params returns : List DataType} {declared : List (String × BankSizes)} {unit : Callable}
    (built : build package name kind params returns declared = .ok unit) :
    unit.BuiltFrom package name kind params returns declared := by
  unfold build at built
  split at built
  · cases built
  · next paramLayout paramsLaidOut =>
    split at built
    · cases built
    · next returnLayout returnsLaidOut =>
      cases declared with
      | nil =>
          cases built
          exact ⟨rfl, rfl, rfl, paramsLaidOut, returnsLaidOut, rfl⟩
      | cons first others =>
          cases built
          exact ⟨rfl, rfl, rfl, paramsLaidOut, returnsLaidOut, rfl⟩

/-- Workers are told apart by their numbers. -/
theorem index_numberWorkers (params : BankSizes) (index : Nat)
    (declared : List (String × BankSizes)) :
    (numberWorkers params index declared).map Worker.index =
      List.range' index declared.length := by
  induction declared generalizing index with
  | nil => rfl
  | cons first others inductionHypothesis =>
      unfold numberWorkers
      rw [List.map_cons, inductionHypothesis, List.length_cons, List.range'_succ]

theorem nodup_of_build {package name : String} {kind : UnitKind} {params returns : List DataType}
    {declared : List (String × BankSizes)} {unit : Callable}
    (built : build package name kind params returns declared = .ok unit) :
    unit.workers.Nodup := by
  rw [(builtFrom_of_build built).workers]
  cases declared with
  | nil =>
      exact List.pairwise_singleton _ _
  | cons first others =>
      have numbered : ((numberWorkers unit.params.sizes 0 (first :: others)).map
          Worker.index).Nodup := by
        rw [index_numberWorkers]
        exact List.nodup_range'
      exact (List.pairwise_map.mp numbered).imp fun different same =>
        different (congrArg Worker.index same)

theorem sound_of_build {package name : String} {kind : UnitKind} {params returns : List DataType}
    {declared : List (String × BankSizes)} {unit : Callable}
    (built : build package name kind params returns declared = .ok unit) : unit.Sound := by
  have parts := builtFrom_of_build built
  refine ⟨Layout.sound_of_ofTypes parts.params, Layout.sound_of_ofTypes parts.returns, ?_⟩
  intro worker member bank
  rw [parts.workers] at member
  cases declared with
  | nil =>
      cases List.mem_singleton.mp member
      exact Nat.le_refl _
  | cons first others =>
      exact roomy_of_numberWorkers member bank

end Callable

end WorkerMachine
