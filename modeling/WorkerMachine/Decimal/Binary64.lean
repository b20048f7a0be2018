/-!
# Binary floating-point numbers of 64 bits

A number is kept as its bits, so that two numbers are the same value of this type exactly when they
are stored alike.  Comparison in the arithmetic sense, where a NaN differs from itself and the two
zeros agree, is the separate relation `agrees`.
-/

namespace WorkerMachine

/-- A binary64 number, given by its sign bit, eleven exponent bits and 52 fraction bits. -/
structure Binary64 where
  bits : UInt64
  deriving DecidableEq, Repr

namespace Binary64

def zero : Binary64 := ⟨0⟩

instance : Inhabited Binary64 := ⟨zero⟩

/-- The quiet NaN without a sign or a payload. -/
def nan : Binary64 := ⟨0x7FF8000000000000⟩

/-- The infinity of the given sign. -/
def infinity (negative : Bool) : Binary64 :=
  ⟨if negative then 0xFFF0000000000000 else 0x7FF0000000000000⟩

def isNegative (number : Binary64) : Bool :=
  number.bits.toNat / Nat.pow 2 63 = 1

def exponentField (number : Binary64) : Nat :=
  number.bits.toNat / Nat.pow 2 52 % Nat.pow 2 11

/-- The 52 fraction bits. -/
def fractionField (number : Binary64) : Nat :=
  number.bits.toNat % Nat.pow 2 52

/-- All exponent bits set and a fraction that is not zero. -/
def isNaN (number : Binary64) : Bool :=
  number.exponentField = 2047 && number.fractionField ≠ 0

/-- All exponent bits set and no fraction. -/
def isInfinite (number : Binary64) : Bool :=
  number.exponentField = 2047 && number.fractionField = 0

/-- Either of the two zeros. -/
def isZero (number : Binary64) : Bool :=
  number.exponentField = 0 && number.fractionField = 0

/-- The integer `m` for which a finite number has the magnitude `m * 2 ^ scale`. -/
def significand (number : Binary64) : Nat :=
  if number.exponentField = 0 then number.fractionField else Nat.pow 2 52 + number.fractionField

/-- The power of two that the significand of a finite number is multiplied by. -/
def scale (number : Binary64) : Int :=
  if number.exponentField = 0 then -1074 else (number.exponentField : Int) - 1075

/-- The number of the given sign whose bits below the sign are `magnitude`. -/
def ofMagnitudeBits (negative : Bool) (magnitude : Nat) : Binary64 :=
  ⟨UInt64.ofNat (magnitude + if negative then Nat.pow 2 63 else 0)⟩

/-- Arithmetic equality: a NaN agrees with nothing, and zeros agree whatever their signs. -/
def agrees (left right : Binary64) : Bool :=
  !left.isNaN && !right.isNaN && (left.bits == right.bits || left.isZero && right.isZero)

/-- The sum, rounded to nearest with ties to even. -/
def add (left right : Binary64) : Binary64 :=
  ⟨(Float.ofBits left.bits + Float.ofBits right.bits).toBits⟩

instance : Add Binary64 := ⟨add⟩

/-- A NaN does not agree with itself. -/
theorem agrees_self_eq_not_isNaN (number : Binary64) : number.agrees number = !number.isNaN := by
  simp [agrees]

end Binary64

end WorkerMachine
