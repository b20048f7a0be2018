import WorkerMachine.Value.Category
/-!
# Sizes of register banks

One count of slots for each of the six banks.
-/

namespace WorkerMachine

structure BankSizes where
  longs : Nat := 0
  doubles : Nat := 0
  strings : Nat := 0
  ints : Nat := 0
  blobs : Nat := 0
  refs : Nat := 0
  deriving DecidableEq, Repr, Inhabited

namespace BankSizes

def zero : BankSizes := {}

def get (sizes : BankSizes) : Bank → Nat
  | .int => sizes.longs
  | .float => sizes.doubles
  | .text => sizes.strings
  | .boolean => sizes.ints
  | .blob => sizes.blobs
  | .reference => sizes.refs

/-- The sizes after one more slot in a bank.  The slot gained has the old size as its index. -/
def grow (sizes : BankSizes) : Bank → BankSizes
  | .int => { sizes with longs := sizes.longs + 1 }
  | .float => { sizes with doubles := sizes.doubles + 1 }
  | .text => { sizes with strings := sizes.strings + 1 }
  | .boolean => { sizes with ints := sizes.ints + 1 }
  | .blob => { sizes with blobs := sizes.blobs + 1 }
  | .reference => { sizes with refs := sizes.refs + 1 }

/-- Whether every bank is at least as large as the same bank of `other`. -/
def covers (sizes other : BankSizes) : Bool :=
  Bank.all.all fun bank => other.get bank ≤ sizes.get bank

def max (left right : BankSizes) : BankSizes where
  longs := Nat.max left.longs right.longs
  doubles := Nat.max left.doubles right.doubles
  strings := Nat.max left.strings right.strings
  ints := Nat.max left.ints right.ints
  blobs := Nat.max left.blobs right.blobs
  refs := Nat.max left.refs right.refs

def total (sizes : BankSizes) : Nat :=
  sizes.longs + sizes.doubles + sizes.strings + sizes.ints + sizes.blobs + sizes.refs

@[simp] theorem get_zero (bank : Bank) : zero.get bank = 0 := by
  cases bank <;> rfl

/-- Growing a bank adds one slot there and none elsewhere. -/
theorem get_grow (sizes : BankSizes) (grown asked : Bank) :
    (sizes.grow grown).get asked = sizes.get asked + if grown = asked then 1 else 0 := by
  cases grown <;> cases asked <;> rfl

theorem get_max (left right : BankSizes) (bank : Bank) :
    (left.max right).get bank = Nat.max (left.get bank) (right.get bank) := by
  cases bank <;> rfl

theorem ext_get {left right : BankSizes} (sameSizes : ∀ bank, left.get bank = right.get bank) :
    left = right := by
  obtain ⟨leftLongs, leftDoubles, leftStrings, leftInts, leftBlobs, leftRefs⟩ := left
  obtain ⟨rightLongs, rightDoubles, rightStrings, rightInts, rightBlobs, rightRefs⟩ := right
  have longs := sameSizes .int
  have doubles := sameSizes .float
  have strings := sameSizes .text
  have ints := sameSizes .boolean
  have blobs := sameSizes .blob
  have refs := sameSizes .reference
  simp only [get] at longs doubles strings ints blobs refs
  subst longs doubles strings ints blobs refs
  rfl

theorem covers_iff (sizes other : BankSizes) :
    sizes.covers other = true ↔ ∀ bank, other.get bank ≤ sizes.get bank := by
  constructor
  · intro covered bank
    have everyBank := List.all_eq_true.1 covered bank (Bank.mem_all bank)
    simpa using everyBank
  · intro everyBank
    exact List.all_eq_true.2 fun bank _ => by simpa using everyBank bank

end BankSizes

end WorkerMachine
