import WorkerMachine.Registers.Layout
import WorkerMachine.Value.Identity
/-!
# Register files

A register file holds one bank of fixed size for each kind of value.  The raw content of a slot is a
cell; a boolean is kept as a 32-bit integer, which reads as true exactly when it is one.  An access
past the end of a bank changes nothing and is reported.
-/

namespace WorkerMachine

inductive Cell where
  | long (number : Int64)
  | double (number : Binary64)
  | string (text : String)
  | int (number : Int32)
  | blob (bytes : List UInt8)
  | ref (target : Reference)
  deriving DecidableEq

namespace Cell

def bank : Cell → Bank
  | long _ => .int
  | double _ => .float
  | string _ => .text
  | int _ => .boolean
  | blob _ => .blob
  | ref _ => .reference

def zeroOf : Bank → Cell
  | .int => long 0
  | .float => double .zero
  | .text => string ""
  | .boolean => int 0
  | .blob => blob []
  | .reference => ref .nil

def toValue : Cell → Value
  | long number => .int number
  | double number => .float number
  | string text => .text text
  | int number => .boolean (number == 1)
  | blob bytes => .blob bytes
  | ref target => .reference target

def ofValue : Value → Cell
  | .int number => long number
  | .float number => double number
  | .text text => string text
  | .boolean truth => int (if truth then 1 else 0)
  | .blob bytes => blob bytes
  | .reference target => ref target

@[simp] theorem bank_zeroOf (bank : Bank) : (zeroOf bank).bank = bank := by
  cases bank <;> rfl

@[simp] theorem bank_ofValue (value : Value) : (ofValue value).bank = value.bank := by
  cases value <;> rfl

@[simp] theorem bank_toValue (cell : Cell) : cell.toValue.bank = cell.bank := by
  cases cell <;> rfl

/-- A stored value reads back as itself. -/
@[simp] theorem toValue_ofValue (value : Value) : (ofValue value).toValue = value := by
  cases value with
  | boolean truth => cases truth <;> rfl
  | _ => rfl

end Cell

/-- Storage for the registers of one activation, or for global memory. -/
structure RegisterFile where
  longs : Array Int64 := #[]
  doubles : Array Binary64 := #[]
  strings : Array String := #[]
  ints : Array Int32 := #[]
  blobs : Array (List UInt8) := #[]
  refs : Array Reference := #[]
  deriving DecidableEq, Inhabited

namespace RegisterFile

def empty : RegisterFile := {}

/-- A file of the given sizes in which every slot is zero. -/
def ofSizes (sizes : BankSizes) : RegisterFile where
  longs := Array.replicate sizes.longs 0
  doubles := Array.replicate sizes.doubles .zero
  strings := Array.replicate sizes.strings ""
  ints := Array.replicate sizes.ints 0
  blobs := Array.replicate sizes.blobs []
  refs := Array.replicate sizes.refs .nil

def sizes (file : RegisterFile) : BankSizes where
  longs := file.longs.size
  doubles := file.doubles.size
  strings := file.strings.size
  ints := file.ints.size
  blobs := file.blobs.size
  refs := file.refs.size

def cell? (file : RegisterFile) (slot : Slot) : Option Cell :=
  match slot.bank with
  | .int => file.longs[slot.index]?.map .long
  | .float => file.doubles[slot.index]?.map .double
  | .text => file.strings[slot.index]?.map .string
  | .boolean => file.ints[slot.index]?.map .int
  | .blob => file.blobs[slot.index]?.map .blob
  | .reference => file.refs[slot.index]?.map .ref

/-- Put raw content at an index of its bank; past the end of the bank nothing changes. -/
def putCell (file : RegisterFile) (index : Nat) : Cell → RegisterFile
  | .long number => { file with longs := file.longs.setIfInBounds index number }
  | .double number => { file with doubles := file.doubles.setIfInBounds index number }
  | .string text => { file with strings := file.strings.setIfInBounds index text }
  | .int number => { file with ints := file.ints.setIfInBounds index number }
  | .blob bytes => { file with blobs := file.blobs.setIfInBounds index bytes }
  | .ref target => { file with refs := file.refs.setIfInBounds index target }

def overrunAt (file : RegisterFile) (slot : Slot) : Overrun :=
  ⟨file.sizes.get slot.bank, slot.index⟩

def read (file : RegisterFile) (slot : Slot) : Except Overrun Cell :=
  match file.cell? slot with
  | some cell => .ok cell
  | none => .error (file.overrunAt slot)

def write (file : RegisterFile) (index : Nat) (cell : Cell) : Except Overrun RegisterFile :=
  if index < file.sizes.get cell.bank then .ok (file.putCell index cell)
  else .error (file.overrunAt ⟨cell.bank, index⟩)

inductive StoreFailure where
  | mismatch (actual : Bank)
  | overrun (overrun : Overrun)
  deriving DecidableEq, Repr

/-- Store a value in a slot.  A value of another bank is refused before the index is looked at. -/
def store (file : RegisterFile) (slot : Slot) (value : Value) : Except StoreFailure RegisterFile :=
  if value.bank = slot.bank then
    match file.write slot.index (.ofValue value) with
    | .ok stored => .ok stored
    | .error overrun => .error (.overrun overrun)
  else .error (.mismatch value.bank)

/-- Store a value in a slot.  A value of another bank leaves the file as it is. -/
def storeOrKeep (file : RegisterFile) (slot : Slot) (value : Value) :
    Except Overrun RegisterFile :=
  match file.store slot value with
  | .ok after => .ok after
  | .error (.mismatch _) => .ok file
  | .error (.overrun overrun) => .error overrun

def load (file : RegisterFile) (slot : Slot) : Except Overrun Value :=
  (file.read slot).map Cell.toValue

/-- Read a slot as a value, if the slot exists. -/
def get? (file : RegisterFile) (slot : Slot) : Option Value :=
  (file.cell? slot).map Cell.toValue

def copySlot (file : RegisterFile) (index : Nat) (source : RegisterFile) (slot : Slot) :
    Except Overrun RegisterFile :=
  match source.read slot with
  | .ok cell => file.write index cell
  | .error overrun => .error overrun

/-- Whether two files have equal values in all banks, comparing numbers arithmetically. -/
def agrees (left right : RegisterFile) : Bool :=
  left.longs == right.longs
    && left.doubles.size == right.doubles.size
    && (left.doubles.zip right.doubles).all (fun pair => pair.1.agrees pair.2)
    && left.strings == right.strings
    && left.ints == right.ints
    && left.blobs == right.blobs
    && left.refs.size == right.refs.size
    && (left.refs.zip right.refs).all fun pair => pair.1.agrees pair.2

/-! ## Slots are independent -/

@[simp] theorem sizes_ofSizes (asked : BankSizes) : (ofSizes asked).sizes = asked := by
  simp [ofSizes, sizes]

/-- Putting content anywhere keeps the sizes. -/
@[simp] theorem sizes_putCell (file : RegisterFile) (index : Nat) (cell : Cell) :
    (file.putCell index cell).sizes = file.sizes := by
  cases cell <;> simp [putCell, sizes]

/-- The content found in a slot belongs to the slot's bank. -/
theorem bank_of_cell? {file : RegisterFile} {slot : Slot} {cell : Cell}
    (found : file.cell? slot = some cell) : cell.bank = slot.bank := by
  obtain ⟨bank, index⟩ := slot
  cases bank <;> simp only [cell?, Option.map_eq_some_iff] at found <;>
    obtain ⟨content, _, equality⟩ := found <;> subst equality <;> rfl

/-- A slot exists exactly when its index is below the size of its bank. -/
theorem isSome_cell? (file : RegisterFile) (slot : Slot) :
    (file.cell? slot).isSome = decide (slot.index < file.sizes.get slot.bank) := by
  obtain ⟨bank, index⟩ := slot
  cases bank <;> simp only [cell?, sizes, BankSizes.get, Option.isSome_map] <;> grind

/-- After content is put into a slot that exists, that slot holds it and every other slot holds what
it held. -/
theorem cell?_putCell (file : RegisterFile) (index : Nat) (cell : Cell) (asked : Slot) :
    (file.putCell index cell).cell? asked =
      if asked = ⟨cell.bank, index⟩ then
        if index < file.sizes.get cell.bank then some cell else none
      else file.cell? asked := by
  obtain ⟨askedBank, askedIndex⟩ := asked
  cases cell <;> cases askedBank <;>
    simp only [putCell, cell?, Cell.bank, sizes, BankSizes.get, Slot.mk.injEq, reduceCtorEq,
      false_and, true_and, if_false] <;>
    by_cases sameIndex : askedIndex = index <;>
    simp only [sameIndex, if_true, if_false, Array.getElem?_setIfInBounds] <;>
    grind

/-- Every slot of a fresh file holds zero. -/
theorem cell?_ofSizes (asked : BankSizes) (slot : Slot) :
    (ofSizes asked).cell? slot =
      if slot.index < asked.get slot.bank then some (Cell.zeroOf slot.bank) else none := by
  obtain ⟨bank, index⟩ := slot
  cases bank <;>
    simp only [cell?, ofSizes, BankSizes.get, Cell.zeroOf, Array.getElem?_replicate] <;>
    grind

end RegisterFile

end WorkerMachine
