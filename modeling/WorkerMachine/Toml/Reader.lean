/-!
# Readers of TOML texts

A reader takes the characters that lie ahead and returns what it read together with the characters
after it, or nothing where the text is not well formed.  A skipper only drops what it reads.
-/

namespace WorkerMachine.Toml

abbrev Reader (Part : Type) := List Char → Option (Part × List Char)

/-- A reader that keeps nothing of what it reads. -/
abbrev Skipper := List Char → Option (List Char)

def readFixed (digit? : Char → Option Nat) (base : Nat) : Nat → Nat → Reader Nat
  | 0, total, characters => some (total, characters)
  | _ + 1, _, [] => none
  | count + 1, total, character :: rest =>
    match digit? character with
    | some digit => readFixed digit? base count (total * base + digit) rest
    | none => none

/-! ## Between the parts -/

def isInlineBlank (character : Char) : Bool :=
  character = ' ' || character = '\t'

def skipInlineBlanks (characters : List Char) : List Char :=
  characters.dropWhile isInlineBlank

/-- Control characters other than the tab, which may stand in no comment and in no text. -/
def isForbidden (character : Char) : Bool :=
  (character.toNat < 0x20 && character ≠ '\t') || character.toNat = 0x7F

def skipLineEnd : Skipper
  | '\n' :: rest => some rest
  | '\r' :: '\n' :: rest => some rest
  | _ => none

/-- Drop a comment up to the end of its line; a control character in it is refused. -/
def skipComment : Skipper
  | '#' :: rest =>
    let body := rest.takeWhile fun character => character ≠ '\n' && character ≠ '\r'
    if body.any isForbidden then none
    else some (rest.dropWhile fun character => character ≠ '\n' && character ≠ '\r')
  | characters => some characters

/-- Drop blanks, ends of lines and comments; `inComment` tells whether a comment has begun. -/
def skipFillerFrom : Bool → Skipper
  | _, [] => some []
  | _, '\n' :: rest | _, '\r' :: '\n' :: rest => skipFillerFrom false rest
  | true, character :: rest =>
    if isForbidden character then none else skipFillerFrom true rest
  | false, '#' :: rest => skipFillerFrom true rest
  | false, character :: rest =>
    if isInlineBlank character then skipFillerFrom false rest else some (character :: rest)

def skipFiller : Skipper := skipFillerFrom false

end WorkerMachine.Toml
