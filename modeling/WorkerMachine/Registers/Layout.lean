import WorkerMachine.Fault
import WorkerMachine.Registers.Sizes
/-!
# Layouts of signatures

A layout places each position of a signature in a slot.  Within a bank the slots are numbered in the
order of declaration, whatever stands between them in other banks.
-/

namespace WorkerMachine

/-- A place for one value: a bank and an index in it. -/
structure Slot where
  bank : Bank
  index : Nat
  deriving DecidableEq, Repr, Inhabited

/-- The placement of a signature: its types, the slot of each position, and the sizes of the banks
that hold exactly these slots. -/
structure Layout where
  types : List DataType
  slots : List Slot
  sizes : BankSizes
  deriving DecidableEq, Repr, Inhabited

namespace Layout

def empty : Layout := ⟨[], [], .zero⟩

/-- Give each type the next free slot of its bank, starting from banks that are already in use.  The
first type without a bank is refused. -/
def assign : BankSizes → List DataType → Except Fault (List Slot × BankSizes)
  | used, [] => .ok ([], used)
  | used, type :: rest =>
    match type.bank? with
    | none => .error (.unsupportedType type.name)
    | some bank =>
      match assign (used.grow bank) rest with
      | .error fault => .error fault
      | .ok (slots, final) => .ok (⟨bank, used.get bank⟩ :: slots, final)

def ofTypes (types : List DataType) : Except Fault Layout :=
  match assign .zero types with
  | .error fault => .error fault
  | .ok (slots, sizes) => .ok ⟨types, slots, sizes⟩

def length (layout : Layout) : Nat :=
  layout.slots.length

def banks (layout : Layout) : List Bank :=
  layout.slots.map Slot.bank

def indices (layout : Layout) : List Nat :=
  layout.slots.map Slot.index

def signature (layout : Layout) : String :=
  "(" ++ String.intercalate ", " (layout.types.map DataType.name) ++ ")"

@[simp] theorem ofTypes_nil : ofTypes [] = .ok empty := rfl

/-- Assigning a longer list assigns its first type and then the rest. -/
theorem assign_cons {used final : BankSizes} {type : DataType} {rest : List DataType} {bank : Bank}
    {slots : List Slot} (banked : type.bank? = some bank)
    (restAssigned : assign (used.grow bank) rest = .ok (slots, final)) :
    assign used (type :: rest) = .ok (⟨bank, used.get bank⟩ :: slots, final) := by
  simp [assign, banked, restAssigned]

/-- Every type of an assigned list has got exactly one slot. -/
theorem length_of_assign {used final : BankSizes} {types : List DataType} {slots : List Slot}
    (assigned : assign used types = .ok (slots, final)) : slots.length = types.length := by
  induction types generalizing used final slots with
  | nil =>
    simp only [assign, Except.ok.injEq, Prod.mk.injEq] at assigned
    simp [← assigned.1]
  | cons type rest inductionHypothesis =>
    simp only [assign] at assigned
    split at assigned
    · cases assigned
    · split at assigned
      · cases assigned
      · next restSlots restFinal restAssigned =>
        simp only [Except.ok.injEq, Prod.mk.injEq] at assigned
        rw [← assigned.1, List.length_cons, List.length_cons, inductionHypothesis restAssigned]

end Layout

end WorkerMachine
