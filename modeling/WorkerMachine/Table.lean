/-!
# Tables that remember insertion

A `Table` maps keys to values and holds each key at most once.  Writing a key that is already
present replaces its value where it stands, writing a fresh key puts it last, and the order of the
entries is the order in which their keys first arrived.  The lemmas say what a look-up finds after
each operation, and in which order the keys stand after a write.
-/

namespace WorkerMachine

/-- A finite map whose entries keep the order in which their keys were first written. -/
structure Table (Key Entry : Type) where
  entries : List (Key × Entry)
  deriving Repr, DecidableEq

namespace Table

variable {Key Entry : Type}

def empty : Table Key Entry := ⟨[]⟩

instance : Inhabited (Table Key Entry) := ⟨empty⟩

/-- The keys in the order in which they were first written. -/
def keys (table : Table Key Entry) : List Key :=
  table.entries.map Prod.fst

def values (table : Table Key Entry) : List Entry :=
  table.entries.map Prod.snd

def size (table : Table Key Entry) : Nat :=
  table.entries.length

variable [DecidableEq Key]

/-- Look a key up in a list of entries. -/
def seek? : List (Key × Entry) → Key → Option Entry
  | [], _ => none
  | (heldKey, held) :: rest, key => if heldKey = key then some held else seek? rest key

/-- Replace the entry of a key where it stands, or put it last. -/
def putEntry : List (Key × Entry) → Key → Entry → List (Key × Entry)
  | [], key, entry => [(key, entry)]
  | (heldKey, held) :: rest, key, entry =>
    if heldKey = key then (key, entry) :: rest else (heldKey, held) :: putEntry rest key entry

def get? (table : Table Key Entry) (key : Key) : Option Entry :=
  seek? table.entries key

def contains (table : Table Key Entry) (key : Key) : Bool :=
  (table.get? key).isSome

/-- Write a key: its old value is replaced in place, a fresh key goes last. -/
def insert (table : Table Key Entry) (key : Key) (entry : Entry) : Table Key Entry :=
  ⟨putEntry table.entries key entry⟩

def erase (table : Table Key Entry) (key : Key) : Table Key Entry :=
  ⟨table.entries.filter fun held => held.1 ≠ key⟩

/-- Change the value of a key that is held; other tables are left as they are. -/
def modify (table : Table Key Entry) (key : Key) (change : Entry → Entry) : Table Key Entry :=
  match table.get? key with
  | some entry => table.insert key (change entry)
  | none => table

/-- Write pairs from first to last, so that the last pair of a key decides its value. -/
def ofList (pairs : List (Key × Entry)) : Table Key Entry :=
  pairs.foldl (fun table pair => table.insert pair.1 pair.2) empty

/-! ## Look-ups after one operation -/

@[simp] theorem get?_empty (key : Key) : (empty : Table Key Entry).get? key = none := rfl

private theorem seek?_putEntry (entries : List (Key × Entry)) (key asked : Key)
    (entry : Entry) :
    seek? (putEntry entries key entry) asked =
      if key = asked then some entry else seek? entries asked := by
  induction entries with
  | nil => simp [putEntry, seek?]
  | cons held rest inductionHypothesis =>
    obtain ⟨heldKey, heldEntry⟩ := held
    by_cases sameKey : heldKey = key
    · subst sameKey
      by_cases sameAsked : heldKey = asked <;> simp [putEntry, seek?, sameAsked]
    · by_cases sameAsked : heldKey = asked
      · subst sameAsked
        have keyDiffers : ¬ key = heldKey := fun equality => sameKey equality.symm
        simp [putEntry, seek?, sameKey, keyDiffers]
      · simp [putEntry, seek?, sameKey, sameAsked, inductionHypothesis]

private theorem mem_of_seek? {entries : List (Key × Entry)} {key : Key} {entry : Entry}
    (found : seek? entries key = some entry) : (key, entry) ∈ entries := by
  induction entries with
  | nil => cases found
  | cons held rest inductionHypothesis =>
    obtain ⟨heldKey, heldEntry⟩ := held
    unfold seek? at found
    split at found
    · next same =>
      cases found
      exact List.mem_cons.mpr (.inl (by rw [same]))
    · exact List.mem_cons_of_mem _ (inductionHypothesis found)

theorem mem_keys_of_get? {table : Table Key Entry} {key : Key} {entry : Entry}
    (found : table.get? key = some entry) : key ∈ table.keys :=
  List.mem_map_of_mem (mem_of_seek? found)

theorem mem_values_of_get? {table : Table Key Entry} {key : Key} {entry : Entry}
    (found : table.get? key = some entry) : entry ∈ table.values :=
  List.mem_map_of_mem (mem_of_seek? found)

/-- After a write the written key holds the new value and every other key its old one. -/
theorem get?_insert (table : Table Key Entry) (key asked : Key) (entry : Entry) :
    (table.insert key entry).get? asked = if key = asked then some entry else table.get? asked :=
  seek?_putEntry table.entries key asked entry

@[simp] theorem get?_insert_self (table : Table Key Entry) (key : Key) (entry : Entry) :
    (table.insert key entry).get? key = some entry := by
  simp [get?_insert]

private theorem seek?_filter (entries : List (Key × Entry)) (key asked : Key) :
    seek? (entries.filter fun held => held.1 ≠ key) asked =
      if key = asked then none else seek? entries asked := by
  induction entries with
  | nil => simp [seek?]
  | cons held rest inductionHypothesis =>
    obtain ⟨heldKey, heldEntry⟩ := held
    by_cases sameKey : heldKey = key
    · subst sameKey
      by_cases sameAsked : heldKey = asked
      · subst sameAsked
        simpa [seek?] using inductionHypothesis
      · simpa [seek?, sameAsked] using inductionHypothesis
    · by_cases sameAsked : heldKey = asked
      · subst sameAsked
        have keyDiffers : ¬ key = heldKey := fun equality => sameKey equality.symm
        simp [seek?, sameKey, keyDiffers]
      · simpa [seek?, sameKey, sameAsked] using inductionHypothesis

/-- After a removal the removed key is absent and every other key holds what it held. -/
theorem get?_erase (table : Table Key Entry) (key asked : Key) :
    (table.erase key).get? asked = if key = asked then none else table.get? asked :=
  seek?_filter table.entries key asked

@[simp] theorem get?_erase_self (table : Table Key Entry) (key : Key) :
    (table.erase key).get? key = none := by
  simp [get?_erase]

/-! ## The order of keys -/

private theorem map_fst_putEntry (entries : List (Key × Entry)) (key : Key) (entry : Entry) :
    (putEntry entries key entry).map Prod.fst =
      if key ∈ entries.map Prod.fst then entries.map Prod.fst
      else entries.map Prod.fst ++ [key] := by
  induction entries with
  | nil => simp [putEntry]
  | cons held rest inductionHypothesis =>
    obtain ⟨heldKey, heldEntry⟩ := held
    by_cases sameKey : heldKey = key
    · simp [putEntry, sameKey]
    · have keyDiffers : ¬ key = heldKey := fun equality => sameKey equality.symm
      simp only [putEntry, sameKey, if_false, List.map_cons, inductionHypothesis, List.mem_cons,
        keyDiffers, false_or]
      split <;> simp

/-- A key that is written keeps its place, and a fresh key comes last. -/
theorem keys_insert (table : Table Key Entry) (key : Key) (entry : Entry) :
    (table.insert key entry).keys =
      if key ∈ table.keys then table.keys else table.keys ++ [key] :=
  map_fst_putEntry table.entries key entry

end Table

end WorkerMachine
