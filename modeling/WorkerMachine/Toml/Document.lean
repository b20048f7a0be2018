import WorkerMachine.Toml.Assembly
import WorkerMachine.Toml.Scalar
/-!
# Reading TOML documents

A document is read line by line: blank lines, headers of tables and of tables in arrays, and
assignments to keys of the table that was opened last.
-/

namespace WorkerMachine.Toml

def isKeyCharacter (character : Char) : Bool :=
  character.isAlphanum || character = '_' || character = '-'

def readKeyPart : Reader String
  | '"' :: rest => readBasicText (rest.length + 1) [] rest
  | '\'' :: rest => readLiteralText [] rest
  | characters =>
    match characters.takeWhile isKeyCharacter with
    | [] => none
    | word => some (String.ofList word, characters.dropWhile isKeyCharacter)

/-- How many parts a key may have, and how deep arrays and inline tables may nest. -/
def depthLimit : Nat := 80

def readKeyParts : Nat → Reader (List String)
  | 0, _ => none
  | bound + 1, characters => do
    let (part, afterPart) ← readKeyPart (skipInlineBlanks characters)
    match skipInlineBlanks afterPart with
    | '.' :: rest =>
      let (parts, after) ← readKeyParts bound rest
      return (part :: parts, after)
    | rest => return ([part], rest)

def readKey : Reader (List String) := readKeyParts depthLimit

/-- Read at most `bound` items of an array and its closing bracket; a comma may follow the last
item. -/
def readItems (readItem : Reader Toml) : Nat → Reader (List Toml)
  | 0, _ => none
  | bound + 1, characters => do
    match ← skipFiller characters with
    | ']' :: rest => return ([], rest)
    | body =>
      let (item, afterItem) ← readItem body
      match ← skipFiller afterItem with
      | ',' :: rest =>
        let (items, after) ← readItems readItem bound rest
        return (item :: items, after)
      | ']' :: rest => return ([item], rest)
      | _ => none

/-- Read at most `bound` assignments of an inline table and its closing brace; a comma may follow
the last assignment, and filler may stand everywhere but inside keys. -/
def readInlineEntries (readItem : Reader Toml) : Nat → DraftEntries → Reader DraftEntries
  | 0, _, _ => none
  | bound + 1, entries, characters => do
    match ← skipFiller characters with
    | '\x7d' :: rest => return (entries, rest)
    | body =>
      let (key, afterKey) ← readKey body
      match ← skipFiller afterKey with
      | '=' :: rest =>
        let (value, afterValue) ← readItem (← skipFiller rest)
        let extended ← assign value true key entries
        match ← skipFiller afterValue with
        | ',' :: after => readInlineEntries readItem bound extended after
        | '\x7d' :: after => return (extended, after)
        | _ => none
      | _ => none

/-- Read a value in which arrays and inline tables nest at most so deep. -/
def readNested : Nat → Reader Toml
  | 0, characters => readScalar characters
  | depth + 1, characters =>
    match characters with
    | '[' :: rest => do
      let (items, after) ← readItems (readNested depth) (rest.length + 1) rest
      return (array items, after)
    | '\x7b' :: rest => do
      let (entries, after) ← readInlineEntries (readNested depth) (rest.length + 1) [] rest
      return (table (finishEntries entries), after)
    | _ => readScalar characters

def readValue : Reader Toml := readNested depthLimit

def finishLine : Skipper := fun characters => do
  match ← skipComment (skipInlineBlanks characters) with
  | [] => some []
  | rest => skipLineEnd rest

def readHeaderKey : Reader (List String) := fun characters => do
  let (key, afterKey) ← readKey characters
  match afterKey with
  | ']' :: rest => return (key, rest)
  | _ => none

/-- Apply a change to the table that the last part of a header's key is looked up in. -/
def alterHeader (change : String → DraftEntries → Option DraftEntries) (key : List String)
    (document : DraftEntries) : Option DraftEntries :=
  match key.getLast? with
  | none => none
  | some last => alterAlong (change last) key.dropLast document

/-- Read the lines of a document.  `current` is the path of the table that was opened last. -/
def readLines : Nat → List String → DraftEntries → List Char → Option DraftEntries
  | 0, _, _, _ => none
  | bound + 1, current, document, characters => do
    match ← skipFiller characters with
    | [] => some document
    | '[' :: '[' :: rest =>
      let (key, afterKey) ← readHeaderKey rest
      match afterKey with
      | ']' :: after =>
        let opened ← alterHeader beginTable key document
        readLines bound key opened (← finishLine after)
      | _ => none
    | '[' :: rest =>
      let (key, after) ← readHeaderKey rest
      let opened ← alterHeader openTable key document
      readLines bound key opened (← finishLine after)
    | body =>
      let (key, afterKey) ← readKey body
      match afterKey with
      | '=' :: rest =>
        let (value, afterValue) ← readValue (skipInlineBlanks rest)
        let extended ← alterAlong (assign value true key) current document
        readLines bound current extended (← finishLine afterValue)
      | _ => none

/-- Read a document; a byte order mark in front is dropped. -/
def ofText? (document : String) : Option Toml :=
  let characters := match document.toList with
    | mark :: rest => if mark.toNat = 0xFEFF then rest else mark :: rest
    | [] => []
  (readLines (characters.length + 1) [] [] characters).map fun entries =>
    table (finishEntries entries)

end WorkerMachine.Toml
