import WorkerMachine.Decimal.Binary64
/-!
# The fewest decimal digits that read back

A finite positive binary64 number is the nearest one to every real in an interval around it.  The
digits chosen here are those of a decimal in that interval with as few digits as possible, and among
the two candidates of that length the one nearer to the number; what happens when both are equally
near is the caller's choice.  All comparisons are made on natural numbers.
-/

namespace WorkerMachine.Decimal

/-- Which of two equally near decimals is taken. -/
inductive TieRule where
  | toEven
  | upward
  deriving DecidableEq, Repr

/-- The decimal `digits * 10 ^ exponent`. -/
structure Scaled where
  digits : Nat
  exponent : Int
  deriving DecidableEq, Repr

def powerRatio (base : Nat) (exponent : Int) : Nat × Nat :=
  if exponent < 0 then (1, Nat.pow base exponent.natAbs) else (Nat.pow base exponent.natAbs, 1)

/-- The reals that round to a number, in quarters of its unit in the last place: from
`4 * significand - below` to `4 * significand + 2`, both ends included when `closed` holds. -/
structure RoundingInterval where
  centre : Nat
  below : Nat
  closed : Bool
  quarterExponent : Int

/-- The interval of reals that round to a finite positive number.  Its lower half is narrower just
above a power of two, where the neighbour below is closer. -/
def RoundingInterval.ofNumber (number : Binary64) : RoundingInterval where
  centre := 4 * number.significand
  below := if number.fractionField = 0 && 1 < number.exponentField then 1 else 2
  closed := number.significand % 2 = 0
  quarterExponent := number.scale - 2

/-- Factors `(grid, quarter)` for which `d * 10 ^ exponent` compares with `x` quarters as
`d * grid` compares with `x * quarter`. -/
def RoundingInterval.factors (interval : RoundingInterval) (exponent : Int) : Nat × Nat :=
  let (ten, tenth) := powerRatio 10 exponent
  let (two, half) := powerRatio 2 interval.quarterExponent
  (ten * half, two * tenth)

/-- Whether `digits * 10 ^ exponent` lies in the interval. -/
def RoundingInterval.holds (interval : RoundingInterval) (digits : Nat) (exponent : Int) : Bool :=
  let (grid, quarter) := interval.factors exponent
  let lowest := (interval.centre - interval.below) * quarter
  let highest := (interval.centre + 2) * quarter
  let point := digits * grid
  if interval.closed then lowest ≤ point && point ≤ highest else lowest < point && point < highest

/-- The neighbour below the centre on the grid of multiples of `10 ^ exponent`. -/
def RoundingInterval.floorOnGrid (interval : RoundingInterval) (exponent : Int) : Nat :=
  let (grid, quarter) := interval.factors exponent
  interval.centre * quarter / grid

/-- The candidate on one grid: the neighbours of the centre that lie in the interval, of two the
nearer, and of two equally near ones what the rule says. -/
def RoundingInterval.onGrid? (interval : RoundingInterval) (tie : TieRule) (exponent : Int) :
    Option Nat :=
  let lower := interval.floorOnGrid exponent
  match interval.holds lower exponent, interval.holds (lower + 1) exponent with
  | false, false => none
  | true, false => some lower
  | false, true => some (lower + 1)
  | true, true =>
    let (grid, quarter) := interval.factors exponent
    let twice := 2 * interval.centre * quarter
    let middle := (2 * lower + 1) * grid
    if twice < middle then some lower
    else if middle < twice then some (lower + 1)
    else match tie with
      | .upward => some (lower + 1)
      | .toEven => some (if lower % 2 = 0 then lower else lower + 1)

/-- Try ever finer grids, `remaining` of them, and take the first one with a candidate. -/
def RoundingInterval.coarsestOnGrids (interval : RoundingInterval) (tie : TieRule) :
    Nat → Int → Scaled
  | 0, exponent => ⟨interval.floorOnGrid exponent, exponent⟩
  | remaining + 1, exponent =>
    match interval.onGrid? tie exponent with
    | some digits => ⟨digits, exponent⟩
    | none => coarsestOnGrids interval tie remaining (exponent - 1)

/-- Drop the zeros at the end of the digits, at most `bound` of them. -/
def Scaled.trimZeros : Nat → Scaled → Scaled
  | 0, decimal => decimal
  | bound + 1, decimal =>
    if decimal.digits ≠ 0 && decimal.digits % 10 = 0 then
      trimZeros bound ⟨decimal.digits / 10, decimal.exponent + 1⟩
    else decimal

/-- Raise an exponent until ten to that power is above the centre, at most `bound` times. -/
def RoundingInterval.exponentAbove (interval : RoundingInterval) : Nat → Int → Int
  | 0, exponent => exponent
  | bound + 1, exponent =>
    if interval.floorOnGrid exponent = 0 then exponent
    else exponentAbove interval bound (exponent + 1)

/-- The shortest decimal that rounds to a finite number other than zero, without zeros at its end.
The search starts at the power of ten just above the number and needs at most seventeen digits. -/
def shortest (tie : TieRule) (number : Binary64) : Scaled :=
  let interval := RoundingInterval.ofNumber number
  let estimate := ((number.significand.log2 : Int) + number.scale) * 30103 / 100000
  let above := interval.exponentAbove 4 (estimate - 1)
  (interval.coarsestOnGrids tie 18 (above - 1)).trimZeros 20

end WorkerMachine.Decimal
