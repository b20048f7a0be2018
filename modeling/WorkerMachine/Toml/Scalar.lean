import WorkerMachine.Toml.Basic
import WorkerMachine.Toml.Moment
/-!
# Scalars of TOML texts

The readers of texts in their four forms, and of the bare words that stand for numbers, truth values
and moments.
-/

namespace WorkerMachine.Toml

/-! ## Texts -/

def hexadecimalValue? (character : Char) : Option Nat :=
  if character.isDigit then some (character.toNat - '0'.toNat)
  else if 'a' ≤ character && character ≤ 'f' then some (character.toNat - 'a'.toNat + 10)
  else if 'A' ≤ character && character ≤ 'F' then some (character.toNat - 'A'.toNat + 10)
  else none

/-- The character of a code point, unless it is a surrogate or too large. -/
def characterOf? (code : Nat) : Option Char :=
  if code < 0xD800 || (0xDFFF < code && code < 0x110000) then some (Char.ofNat code) else none

/-- Read the character whose code point is written with `count` hexadecimal digits. -/
def readCodePoint (count : Nat) : Reader Char := fun characters => do
  let (code, rest) ← readFixed hexadecimalValue? 16 count 0 characters
  return (← characterOf? code, rest)

def readEscape : Reader Char
  | 'b' :: rest => some (Char.ofNat 8, rest)
  | 'e' :: rest => some (Char.ofNat 27, rest)
  | 't' :: rest => some ('\t', rest)
  | 'n' :: rest => some ('\n', rest)
  | 'f' :: rest => some (Char.ofNat 12, rest)
  | 'r' :: rest => some ('\r', rest)
  | '"' :: rest => some ('"', rest)
  | '\\' :: rest => some ('\\', rest)
  | 'x' :: rest => readCodePoint 2 rest
  | 'u' :: rest => readCodePoint 4 rest
  | 'U' :: rest => readCodePoint 8 rest
  | _ => none

/-- Read a text of one line up to its closing quotation mark.  `written` holds the characters read
so far, last one first. -/
def readBasicText : Nat → List Char → Reader String
  | 0, _, _ => none
  | _ + 1, _, [] => none
  | _ + 1, written, '"' :: rest => some (String.ofList written.reverse, rest)
  | bound + 1, written, '\\' :: rest => do
    let (character, after) ← readEscape rest
    readBasicText bound (character :: written) after
  | bound + 1, written, character :: rest =>
    if isForbidden character then none else readBasicText bound (character :: written) rest

def readLiteralText : List Char → Reader String
  | _, [] => none
  | written, '\'' :: rest => some (String.ofList written.reverse, rest)
  | written, character :: rest =>
    if isForbidden character then none else readLiteralText (character :: written) rest

def lineIsBlank (characters : List Char) : Bool :=
  (skipLineEnd (skipInlineBlanks characters)).isSome

def skipBlankLines : List Char → List Char
  | '\r' :: '\n' :: rest => skipBlankLines rest
  | character :: rest =>
    if isInlineBlank character || character = '\n' then skipBlankLines rest else character :: rest
  | [] => []

/-- The quotation marks that stand ahead, at most `bound` of them, and the rest. -/
def splitQuotes (quote : Char) : Nat → List Char → Nat × List Char
  | 0, characters => (0, characters)
  | bound + 1, character :: rest =>
    if character = quote then
      let (count, after) := splitQuotes quote bound rest
      (count + 1, after)
    else (0, character :: rest)
  | _ + 1, [] => (0, [])

/-- Read a text of several lines up to its three closing marks; up to two more marks in front of
them belong to the text.  Ends of lines stay as they are written, and with `escapes` a backslash at
the end of a line joins it with the next line that is not blank. -/
def readLongText (quote : Char) (escapes : Bool) : Nat → List Char → Reader String
  | 0, _, _ => none
  | _ + 1, _, [] => none
  | bound + 1, written, character :: rest =>
    if character = quote then
      let (count, after) := splitQuotes quote 5 (character :: rest)
      let inner := if 3 ≤ count then count - 3 else count
      let extended := List.replicate inner quote ++ written
      if 3 ≤ count then some (String.ofList extended.reverse, after)
      else readLongText quote escapes bound extended after
    else if escapes && character = '\\' then
      if lineIsBlank rest then readLongText quote escapes bound written (skipBlankLines rest)
      else do
        let (escaped, after) ← readEscape rest
        readLongText quote escapes bound (escaped :: written) after
    else match character, rest with
      | '\n', _ => readLongText quote escapes bound ('\n' :: written) rest
      | '\r', '\n' :: after => readLongText quote escapes bound ('\n' :: '\r' :: written) after
      | _, _ =>
        if isForbidden character then none
        else readLongText quote escapes bound (character :: written) rest

/-- Read a text of several lines; an end of line right behind the opening marks is dropped. -/
def openLongText (quote : Char) (escapes : Bool) : Reader String := fun characters =>
  let body := (skipLineEnd characters).getD characters
  readLongText quote escapes (body.length + 1) [] body

def readText : Reader String
  | '"' :: '"' :: '"' :: rest => openLongText '"' true rest
  | '\'' :: '\'' :: '\'' :: rest => openLongText '\'' false rest
  | '"' :: rest => readBasicText (rest.length + 1) [] rest
  | '\'' :: rest => readLiteralText [] rest
  | _ => none

/-! ## Numbers and bare words -/

/-- Drop the underscores between digits; one that does not stand between two digits is refused. -/
def dropUnderscores? (isDigit : Char → Bool) : List Char → Option (List Char)
  | [] => none
  | [digit] => if isDigit digit then some [digit] else none
  | digit :: '_' :: next :: rest =>
    if isDigit digit && isDigit next then (dropUnderscores? isDigit (next :: rest)).map (digit :: ·)
    else none
  | digit :: rest =>
    if isDigit digit then (dropUnderscores? isDigit rest).map (digit :: ·) else none

/-- The integer with the given sign and size.  It must fit 128 bits, without a sign or with one. -/
def integerOf? (negative : Bool) (size : Nat) : Option Toml :=
  if negative then if size ≤ Nat.pow 2 127 then some (integer (-size)) else none
  else if size < Nat.pow 2 128 then some (integer size) else none

def basedInteger? (base : Nat) (digits : List Char) : Option Toml := do
  let valid (character : Char) : Bool :=
    match hexadecimalValue? character with
    | some digit => digit < base
    | none => false
  let plain ← dropUnderscores? valid digits
  let size := plain.foldl (fun total digit =>
    total * base + (hexadecimalValue? digit).getD 0) 0
  integerOf? false size

/-- The digits of a whole part: no zero in front unless it is the only digit. -/
def wholeDigits? (characters : List Char) : Option (List Char) := do
  let digits ← dropUnderscores? Char.isDigit characters
  match digits with
  | '0' :: _ :: _ => none
  | _ => some digits

def exponentOf? (characters : List Char) : Option Int := do
  let (negative, body) := Decimal.splitSign characters
  let digits ← dropUnderscores? Char.isDigit body
  let size : Int := Decimal.numberOfDigits digits
  return if negative then -size else size

/-- A number with a fraction or an exponent; one that is too large for a finite number is refused.
-/
def floatOf? (negative : Bool) (body : List Char) : Option Toml := do
  let isExponentMark (character : Char) : Bool := character = 'e' || character = 'E'
  let mantissa := body.takeWhile fun character => !isExponentMark character
  let exponent ← match body.dropWhile fun character => !isExponentMark character with
    | [] => some 0
    | _ :: rest => exponentOf? rest
  let whole ← wholeDigits? (mantissa.takeWhile (· ≠ '.'))
  let fraction ← match mantissa.dropWhile (· ≠ '.') with
    | [] => some []
    | _ :: rest => dropUnderscores? Char.isDigit rest
  let digits := Decimal.numberOfDigits (whole ++ fraction)
  let number := Decimal.nearest negative digits (exponent - fraction.length)
  if number.isInfinite then none else some (float number)

def wordValue? (word : List Char) : Option Toml :=
  match word with
  | ['t', 'r', 'u', 'e'] => some (boolean true)
  | ['f', 'a', 'l', 's', 'e'] => some (boolean false)
  | '0' :: 'x' :: digits => basedInteger? 16 digits
  | '0' :: 'o' :: digits => basedInteger? 8 digits
  | '0' :: 'b' :: digits => basedInteger? 2 digits
  | _ =>
    let (negative, body) := Decimal.splitSign word
    if body = ['i', 'n', 'f'] then some (float (.infinity negative))
    else if body = ['n', 'a', 'n'] then some (float .nan)
    else if isMoment word then some (moment (String.ofList word))
    else if body.any fun character => character = '.' || character = 'e' || character = 'E' then
      floatOf? negative body
    else do
      let digits ← wholeDigits? body
      integerOf? negative (Decimal.numberOfDigits digits)

def isWordCharacter (character : Char) : Bool :=
  character.isAlphanum || character = '_' || character = '-' || character = '+' || character = '.'
    || character = ':'

/-- Read a bare word.  A date and a time with one space between them are one word. -/
def readWord : Reader (List Char) := fun characters =>
  let word := characters.takeWhile isWordCharacter
  let rest := characters.dropWhile isWordCharacter
  match rest with
  | ' ' :: next :: after =>
    if isDate word && isWordCharacter next then
      some (word ++ ' ' :: (next :: after).takeWhile isWordCharacter,
        (next :: after).dropWhile isWordCharacter)
    else some (word, rest)
  | _ => some (word, rest)

def readScalar : Reader Toml := fun characters =>
  match readText characters with
  | some (read, rest) => some (text read, rest)
  | none => do
    let (word, rest) ← readWord characters
    return (← wordValue? word, rest)

end WorkerMachine.Toml
