/-!
# White space and letter case of written names

Settings and arguments are trimmed of white space in the sense of the Unicode property of that
name, while letters are compared without case in the ASCII range only.
-/

namespace WorkerMachine.Text

/-- The characters with the Unicode property `White_Space`. -/
def isBlank (character : Char) : Bool :=
  let code := character.toNat
  (0x09 ≤ code && code ≤ 0x0D) || code == 0x20 || code == 0x85 || code == 0xA0 || code == 0x1680
    || (0x2000 ≤ code && code ≤ 0x200A) || code == 0x2028 || code == 0x2029 || code == 0x202F
    || code == 0x205F || code == 0x3000

def trimCharacters (characters : List Char) : List Char :=
  ((characters.dropWhile isBlank).reverse.dropWhile isBlank).reverse

def trim (text : String) : String :=
  String.ofList (trimCharacters text.toList)

/-- Replace ASCII capitals by small letters and keep every other character. -/
def foldCase (text : String) : String :=
  String.ofList (text.toList.map Char.toLower)

def join (separator : String) (texts : List String) : String :=
  String.intercalate separator texts

/-- Every character that core counts as white space is blank. -/
theorem isBlank_of_isWhitespace (character : Char) (whitespace : character.isWhitespace = true) :
    isBlank character = true := by
  have cases : character = ' ' ∨ character = '\t' ∨ character = '\r' ∨ character = '\n' := by
    simpa [Char.isWhitespace, or_assoc] using whitespace
  rcases cases with equality | equality | equality | equality <;> subst equality <;> decide

end WorkerMachine.Text
