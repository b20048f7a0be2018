import WorkerMachine.Decimal.Binary64
import WorkerMachine.Decimal.Shortest
/-!
# Reading numbers from text

Decimal text is read exactly and rounded once, to the nearest binary64 number with ties to even.
Integers of 64 bits are read digit by digit, and the first thing that goes wrong decides the error.
-/

namespace WorkerMachine.Decimal

def digitValue? (character : Char) : Option Nat :=
  if character.isDigit then some (character.toNat - '0'.toNat) else none

def numberOfDigits (digits : List Char) : Nat :=
  digits.foldl (fun total digit => total * 10 + (digit.toNat - '0'.toNat)) 0

/-! ## Rounding a quotient -/

/-- The quotient rounded to the nearest integer, a half to the even neighbour. -/
def roundQuotient (numerator denominator : Nat) : Nat :=
  let quotient := numerator / denominator
  let twice := 2 * (numerator % denominator)
  if twice < denominator then quotient
  else if denominator < twice then quotient + 1
  else if quotient % 2 = 0 then quotient else quotient + 1

/-- The bits below the sign of the number nearest to a positive quotient.  The significand is
rounded at the scale where it has 53 bits, or at the least scale of all; a carry moves into the
exponent bits, and what does not fit is infinite. -/
def magnitudeBitsOfQuotient (numerator denominator : Nat) : Nat :=
  let estimate : Int := (numerator.log2 : Int) - denominator.log2
  let scaledBy (scale : Int) : Nat × Nat :=
    let (two, half) := powerRatio 2 (-scale)
    (numerator * two, denominator * half)
  let fineScale := max (estimate - 53) (-1074)
  let (fineNumerator, fineDenominator) := scaledBy fineScale
  let scale :=
    if fineNumerator / fineDenominator < Nat.pow 2 53 then fineScale else fineScale + 1
  let (scaledNumerator, scaledDenominator) := scaledBy scale
  let significand := roundQuotient scaledNumerator scaledDenominator
  min ((scale + 1074).toNat * Nat.pow 2 52 + significand) (2047 * Nat.pow 2 52)

/-- The number nearest to `digits * 10 ^ exponent`.  Decimals far outside the range of exponents
are decided by their number of digits alone. -/
def nearest (negative : Bool) (digits : Nat) (exponent : Int) : Binary64 :=
  if digits = 0 then .ofMagnitudeBits negative 0
  else
    let binaryDigits : Int := digits.log2
    if 1100 * 100000 < binaryDigits * 100000 + exponent * 332193 then .infinity negative
    else if binaryDigits * 100000 + exponent * 332192 < -1200 * 100000 then
      .ofMagnitudeBits negative 0
    else
      let (ten, tenth) := powerRatio 10 exponent
      .ofMagnitudeBits negative (magnitudeBitsOfQuotient (digits * ten) tenth)

/-! ## Floating-point text -/

inductive FloatError where
  | empty
  | malformed
  deriving DecidableEq, Repr

def FloatError.message : FloatError → String
  | .empty => "cannot parse float from empty string"
  | .malformed => "invalid float literal"

def splitSign : List Char → Bool × List Char
  | '-' :: rest => (true, rest)
  | '+' :: rest => (false, rest)
  | characters => (false, characters)

def readExponent? : List Char → Option Int
  | [] => some 0
  | mark :: rest =>
    if mark = 'e' || mark = 'E' then
      let (negative, digits) := splitSign rest
      if digits.isEmpty || !digits.all Char.isDigit then none
      else
        let size : Int := numberOfDigits digits
        some (if negative then -size else size)
    else none

/-- Read a decimal without a sign: digits, an optional point with digits, an optional exponent, and
at least one digit before the exponent. -/
def readMagnitude? (characters : List Char) : Option Scaled :=
  let whole := characters.takeWhile Char.isDigit
  let afterWhole := characters.dropWhile Char.isDigit
  let (fraction, afterFraction) := match afterWhole with
    | '.' :: rest => (rest.takeWhile Char.isDigit, rest.dropWhile Char.isDigit)
    | rest => ([], rest)
  if whole.isEmpty && fraction.isEmpty then none
  else (readExponent? afterFraction).map fun exponent =>
    ⟨numberOfDigits (whole ++ fraction), exponent - fraction.length⟩

/-- Read a floating-point number; `inf`, `infinity` and `nan` are known in any case. -/
def readFloat (text : String) : Except FloatError Binary64 :=
  if text.isEmpty then .error .empty
  else
    let (negative, body) := splitSign text.toList
    let folded := String.ofList (body.map Char.toLower)
    if folded = "inf" || folded = "infinity" then .ok (.infinity negative)
    else if folded = "nan" then .ok .nan
    else match readMagnitude? body with
      | some decimal => .ok (nearest negative decimal.digits decimal.exponent)
      | none => .error .malformed

/-! ## Integer text -/

inductive IntegerError where
  | empty
  | malformed
  | tooLarge
  | tooSmall
  deriving DecidableEq, Repr

def IntegerError.message : IntegerError → String
  | .empty => "cannot parse integer from empty string"
  | .malformed => "invalid digit found in string"
  | .tooLarge => "number too large to fit in target type"
  | .tooSmall => "number too small to fit in target type"

/-- Read digits onto what was read before, as long as the total stays within `bound`. -/
def readDigits (bound : Nat) (overflow : IntegerError) : Nat → List Char → Except IntegerError Nat
  | total, [] => .ok total
  | total, character :: rest =>
    match digitValue? character with
    | none => .error .malformed
    | some digit =>
      if bound < total * 10 + digit then .error overflow
      else readDigits bound overflow (total * 10 + digit) rest

/-- Read a natural number up to `bound`; a plus sign may stand in front. -/
def readNatural (bound : Nat) (text : String) : Except IntegerError Nat :=
  match text.toList with
  | [] => .error .empty
  | ['+'] => .error .malformed
  | '+' :: rest => readDigits bound .tooLarge 0 rest
  | characters => readDigits bound .tooLarge 0 characters

/-- Read an integer between `-2 ^ 63` and `2 ^ 63 - 1`; a sign may stand in front. -/
def readInteger (text : String) : Except IntegerError Int64 :=
  match text.toList with
  | [] => .error .empty
  | ['-'] | ['+'] => .error .malformed
  | '-' :: rest => (readDigits (Nat.pow 2 63) .tooSmall 0 rest).map fun size => Int64.ofInt (-size)
  | '+' :: rest => (readDigits (Nat.pow 2 63 - 1) .tooLarge 0 rest).map Int64.ofNat
  | characters => (readDigits (Nat.pow 2 63 - 1) .tooLarge 0 characters).map Int64.ofNat

end WorkerMachine.Decimal
