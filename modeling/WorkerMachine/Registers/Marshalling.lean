import WorkerMachine.Registers.File
/-!
# Values in and out of registers

The calling convention.  Arguments are lowered into the slots of a layout, results are raised from
them, a worker's registers are seeded with the caller's arguments, and return slots are copied from
one file to another.  Where something goes wrong halfway, what was written before stays written.
-/

namespace WorkerMachine.Marshalling

/-- Store values in slots one after the other, counting positions from `position`.  The shorter list
rules. -/
def storeAll (position : Nat) : List Slot → List Value → RegisterFile →
    RegisterFile × Except Interruption Unit
  | slot :: slots, value :: values, file =>
    match file.store slot value with
    | .ok stored => storeAll (position + 1) slots values stored
    | .error (.mismatch actual) => (file, .error (.fault (.bankMismatch position slot.bank actual)))
    | .error (.overrun overrun) => (file, .error overrun.interruption)
  | _, _, file => (file, .ok ())

def lowerInto (file : RegisterFile) (params : Layout) (arguments : List Value) :
    RegisterFile × Except Interruption Unit :=
  if params.length = arguments.length then storeAll 0 params.slots arguments file
  else
    (file, .error (.fault (.arityMismatch params.signature params.length arguments.length)))

def lower (params : Layout) (arguments : List Value) : Except Interruption RegisterFile :=
  match lowerInto (.ofSizes params.sizes) params arguments with
  | (file, .ok ()) => .ok file
  | (_, .error interruption) => .error interruption

def loadAll (file : RegisterFile) : List Slot → Except Overrun (List Value)
  | [] => .ok []
  | slot :: slots =>
    match file.load slot with
    | .error overrun => .error overrun
    | .ok value => (loadAll file slots).map (value :: ·)

/-- Raise the slots of a layout into values, in the order of declaration. -/
def raise (returns : Layout) (file : RegisterFile) : Except Overrun (List Value) :=
  loadAll file returns.slots

/-- Copy slots of one file to indices of another, one after the other; each entry names the bank,
the source index and the target index. -/
def copyAll (source : RegisterFile) : List (Bank × Nat × Nat) → RegisterFile →
    RegisterFile × Except Overrun Unit
  | [], target => (target, .ok ())
  | (bank, sourceIndex, targetIndex) :: rest, target =>
    match target.copySlot targetIndex source ⟨bank, sourceIndex⟩ with
    | .ok copied => copyAll source rest copied
    | .error overrun => (target, .error overrun)

/-- The copies that seeding makes: each argument goes to the next free index of its bank. -/
def seedPlan (used : BankSizes) : List Bank → List Nat → List (Bank × Nat × Nat)
  | bank :: banks, index :: indices =>
    (bank, index, used.get bank) :: seedPlan (used.grow bank) banks indices
  | _, _ => []

/-- A worker's registers: a fresh file of the worker's sizes in which the low slots of each bank
hold the arguments, read from `source` at `arguments`. -/
def seed (locals : BankSizes) (params : Layout) (source : RegisterFile) (arguments : List Nat) :
    Except Overrun RegisterFile :=
  match copyAll source (seedPlan .zero params.banks arguments) (.ofSizes locals) with
  | (file, .ok ()) => .ok file
  | (_, .error overrun) => .error overrun

/-- The copies of a delivery: position by position, and the shortest of the lists rules. -/
def deliveryPlan : List Bank → List Nat → List Nat → List (Bank × Nat × Nat)
  | bank :: banks, sourceIndex :: sourceIndices, targetIndex :: targetIndices =>
    (bank, sourceIndex, targetIndex) :: deliveryPlan banks sourceIndices targetIndices
  | _, _, _ => []

/-- Copy return slots of `source` at `sourceIndices` into `target` at `targetIndices`. -/
def copyReturns (returns : Layout) (source : RegisterFile) (sourceIndices : List Nat)
    (target : RegisterFile) (targetIndices : List Nat) : RegisterFile × Except Overrun Unit :=
  copyAll source (deliveryPlan returns.banks sourceIndices targetIndices) target

end WorkerMachine.Marshalling
