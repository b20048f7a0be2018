import WorkerMachine.Decimal.Shortest
/-!
# Written forms of floating-point numbers

A style says when a number is written with a power of ten and how a whole number ends.  Both styles
of this library choose the fewest digits that read back.
-/

namespace WorkerMachine.Decimal

/-- The decisions of a written form.  The point position of a number is the `p` for which it equals
`0.d₁d₂… * 10 ^ p`; positions outside the given range are written with a power of ten. -/
structure Style where
  tie : TieRule
  positional : Option (Int × Int)
  wholeEnding : String

/-- The form of values: `1.0`, `0.00001`, `1e-6`, `1e16`. -/
def Style.value : Style := ⟨.toEven, some (-4, 16), ".0"⟩

/-- The form of constants: never a power of ten, and whole numbers have no point. -/
def Style.constant : Style := ⟨.upward, none, ""⟩

def digitsOf (number : Nat) : List Char :=
  Nat.toDigits 10 number

private def zeros (count : Nat) : List Char :=
  List.replicate count '0'

/-- Write digits around a point that stands after the first `point` of them. -/
def Style.positionalText (style : Style) (digits : List Char) (point : Int) : List Char :=
  if point ≤ 0 then '0' :: '.' :: zeros point.natAbs ++ digits
  else if (digits.length : Int) ≤ point then
    digits ++ zeros (point.toNat - digits.length) ++ style.wholeEnding.toList
  else digits.take point.toNat ++ '.' :: digits.drop point.toNat

/-- Write digits with one of them before the point and a power of ten. -/
def scientificText (digits : List Char) (point : Int) : List Char :=
  let mantissa := match digits with
    | [] => []
    | [digit] => [digit]
    | digit :: others => digit :: '.' :: others
  mantissa ++ 'e' :: (toString (point - 1)).toList

def Style.magnitudeText (style : Style) (number : Binary64) : List Char :=
  let decimal := shortest style.tie number
  let digits := digitsOf decimal.digits
  let point := decimal.exponent + digits.length
  match style.positional with
  | none => style.positionalText digits point
  | some (lowest, highest) =>
    if lowest ≤ point && point ≤ highest then style.positionalText digits point
    else scientificText digits point

def Style.render (style : Style) (number : Binary64) : String :=
  if number.isNaN then "NaN"
  else
    let sign := if number.isNegative then ['-'] else []
    let magnitude :=
      if number.isInfinite then "inf".toList
      else if number.isZero then '0' :: style.wholeEnding.toList
      else style.magnitudeText number
    String.ofList (sign ++ magnitude)

end WorkerMachine.Decimal
