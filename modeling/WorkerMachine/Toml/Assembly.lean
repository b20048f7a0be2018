import WorkerMachine.Toml.Basic
/-!
# Assembling tables from their parts

A document names the parts of its tables in any order, but each table may be opened only once.  A
draft of a table remembers how it came about: opened by a header, implied by the header of a table
inside it, or implied by a dotted key.
-/

namespace WorkerMachine.Toml

inductive Origin where
  /-- A header opened it. -/
  | opened
  /-- The header of a table inside it implied it. -/
  | implied
  /-- A dotted key implied it. -/
  | dotted
  deriving DecidableEq, Repr

inductive Draft where
  | settled (value : Toml)
  | table (origin : Origin) (entries : List (String × Draft))
  | tables (finished : List Toml) (last : List (String × Draft))
  deriving Inhabited

/-- The entries of a table under construction, in the order of their keys' first appearance. -/
abbrev DraftEntries := List (String × Draft)

def alterEntry (change : Option Draft → Option Draft) (key : String) :
    DraftEntries → Option DraftEntries
  | [] => (change none).map fun draft => [(key, draft)]
  | (heldKey, held) :: rest =>
    if heldKey = key then (change (some held)).map fun draft => (key, draft) :: rest
    else (alterEntry change key rest).map ((heldKey, held) :: ·)

mutual

/-- The value that a draft stands for when nothing more is added to it. -/
def Draft.finish : Draft → Toml
  | .settled value => value
  | .table _ entries => .table (finishEntries entries)
  | .tables finished last => .array (finished.reverse ++ [.table (finishEntries last)])

def finishEntries : List (String × Draft) → List (String × Toml)
  | [] => []
  | (key, draft) :: rest => (key, draft.finish) :: finishEntries rest

end

/-- Assign a value to a dotted key.  The key leads through tables that no header has opened and
through the last tables of arrays of tables; `extensible` tells whether the table that it has led to
so far may get a new entry, which only the first one and those that dotted keys have implied may.
No key is assigned twice. -/
def assign (value : Toml) (extensible : Bool) : List String → DraftEntries → Option DraftEntries
  | [], _ => none
  | [key], entries =>
    if extensible then
      alterEntry (fun held => match held with
        | none => some (.settled value)
        | some _ => none) key entries
    else none
  | key :: path, entries =>
    alterEntry (fun held => match held with
      | none => (assign value true path []).map (.table .dotted)
      | some (.table .opened _) => none
      | some (.table origin inner) =>
        (assign value (origin = .dotted) path inner).map (.table origin)
      | some (.tables finished last) => (assign value false path last).map (.tables finished)
      | some (.settled _) => none) key entries

/-- Change the table that a header's path leads to.  Tables on the way are implied where they are
missing, and an array of tables leads on to its last table. -/
def alterAlong (change : DraftEntries → Option DraftEntries) :
    List String → DraftEntries → Option DraftEntries
  | [], entries => change entries
  | key :: path, entries =>
    alterEntry (fun held => match held with
      | none => (alterAlong change path []).map (.table .implied)
      | some (.table origin inner) => (alterAlong change path inner).map (.table origin)
      | some (.tables finished last) => (alterAlong change path last).map (.tables finished)
      | some (.settled _) => none) key entries

/-- Open a table by its header; only a table that headers have implied so far may exist already. -/
def openTable (key : String) : DraftEntries → Option DraftEntries :=
  alterEntry (fun held => match held with
    | none => some (.table .opened [])
    | some (.table .implied inner) => some (.table .opened inner)
    | some _ => none) key

def beginTable (key : String) : DraftEntries → Option DraftEntries :=
  alterEntry (fun held => match held with
    | none => some (.tables [] [])
    | some (.tables finished last) => some (.tables (.table (finishEntries last) :: finished) [])
    | some _ => none) key

end WorkerMachine.Toml
