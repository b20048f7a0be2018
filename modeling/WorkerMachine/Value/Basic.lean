import WorkerMachine.Decimal.Binary64
import WorkerMachine.Value.Category
import WorkerMachine.Value.ErrorValue
/-!
# Values outside of registers

A value is a scalar or a reference to something composite.  Maps hold each key once and in the order
of its UTF-8 bytes.
-/

namespace WorkerMachine

mutual

/-- A value as the host sees it. -/
inductive Value where
  | int (number : Int64)
  | float (number : Binary64)
  | text (text : String)
  | boolean (truth : Bool)
  | blob (bytes : List UInt8)
  | reference (target : Reference)

/-- What a reference register holds. -/
inductive Reference where
  | nil
  | array (items : List Value)
  | map (entries : List (String × Value))
  | error (error : ErrorValue)

end

namespace Reference

instance : Inhabited Reference := ⟨nil⟩

/-- Put an entry into a list ordered by keys; an equal key keeps its place and takes the new value.
-/
def putOrdered (key : String) (value : Value) : List (String × Value) → List (String × Value)
  | [] => [(key, value)]
  | (heldKey, held) :: rest =>
    if key = heldKey then (key, value) :: rest
    else if key < heldKey then (key, value) :: (heldKey, held) :: rest
    else (heldKey, held) :: putOrdered key value rest

/-- The map of a list of pairs: ordered by keys, and the last pair of a key decides. -/
def ofPairs (pairs : List (String × Value)) : Reference :=
  map (pairs.foldl (fun entries pair => putOrdered pair.1 pair.2 entries) [])

/-! ## The order of entries -/

/-- The entries of a map come in the order of their keys, and no key comes twice. -/
def Ordered (entries : List (String × Value)) : Prop :=
  entries.Pairwise fun left right => left.1 < right.1

theorem mem_putOrdered {key : String} {value : Value} {entries : List (String × Value)}
    {entry : String × Value} (held : entry ∈ putOrdered key value entries) :
    entry = (key, value) ∨ entry ∈ entries := by
  induction entries with
  | nil => simpa [putOrdered] using held
  | cons first rest inductionHypothesis =>
    obtain ⟨firstKey, firstValue⟩ := first
    simp only [putOrdered] at held
    split at held
    · rcases List.mem_cons.mp held with isNew | isLater
      · exact .inl isNew
      · exact .inr (List.mem_cons_of_mem _ isLater)
    · split at held
      · simpa using held
      · rcases List.mem_cons.mp held with isFirst | isLater
        · exact .inr (by simp [isFirst])
        · exact (inductionHypothesis isLater).imp_right (List.mem_cons_of_mem _)

/-- Putting an entry keeps the order. -/
theorem ordered_putOrdered {entries : List (String × Value)} (ordered : Ordered entries)
    (key : String) (value : Value) : Ordered (putOrdered key value entries) := by
  induction entries with
  | nil => simp [putOrdered, Ordered]
  | cons first rest inductionHypothesis =>
    obtain ⟨firstKey, firstValue⟩ := first
    obtain ⟨firstLeast, restOrdered⟩ := List.pairwise_cons.mp ordered
    simp only [putOrdered]
    split
    · next sameKey =>
      subst sameKey
      exact List.pairwise_cons.mpr ⟨firstLeast, restOrdered⟩
    · next keyDiffers =>
      split
      · next isLess =>
        refine List.pairwise_cons.mpr ⟨fun entry held => ?_, ordered⟩
        rcases List.mem_cons.mp held with isFirst | isLater
        · simpa [isFirst] using isLess
        · exact String.lt_trans isLess (firstLeast entry isLater)
      · next notLess =>
        refine List.pairwise_cons.mpr ⟨fun entry held => ?_, inductionHypothesis restOrdered⟩
        rcases mem_putOrdered held with isNew | isLater
        · subst isNew
          have atMost : firstKey ≤ key := String.not_lt.mp notLess
          exact Std.lt_of_le_of_ne atMost (Ne.symm keyDiffers)
        · exact firstLeast entry isLater

theorem exists_ordered_ofPairs (pairs : List (String × Value)) :
    ∃ entries, ofPairs pairs = map entries ∧ Ordered entries := by
  suffices every : ∀ entries : List (String × Value), Ordered entries →
      Ordered (pairs.foldl (fun entries pair => putOrdered pair.1 pair.2 entries) entries) from
    ⟨_, rfl, every [] .nil⟩
  induction pairs with
  | nil => exact fun entries ordered => ordered
  | cons pair rest inductionHypothesis =>
    exact fun entries ordered =>
      inductionHypothesis _ (ordered_putOrdered ordered pair.1 pair.2)

end Reference

namespace Value

instance : Inhabited Value := ⟨reference .nil⟩

def nil : Value := reference .nil

def bank : Value → Bank
  | int _ => .int
  | float _ => .float
  | text _ => .text
  | boolean _ => .boolean
  | blob _ => .blob
  | reference _ => .reference

def kindName : Value → String
  | reference .nil => "nil"
  | reference (.array _) => "array"
  | reference (.map _) => "map"
  | reference (.error _) => "error"
  | scalar => scalar.bank.name

end Value

/-! ## Equality of values

Equality compares floating-point numbers arithmetically, so a value that contains a NaN differs from
itself. -/

mutual

def Value.agrees : Value → Value → Bool
  | .int left, .int right => left == right
  | .float left, .float right => left.agrees right
  | .text left, .text right => left == right
  | .boolean left, .boolean right => left == right
  | .blob left, .blob right => left == right
  | .reference left, .reference right => left.agrees right
  | _, _ => false

def Reference.agrees : Reference → Reference → Bool
  | .nil, .nil => true
  | .array left, .array right => agreeingItems left right
  | .map left, .map right => agreeingEntries left right
  | .error left, .error right => left == right
  | _, _ => false

/-- Whether two lists of values have the same length and equal values at each position. -/
def agreeingItems : List Value → List Value → Bool
  | [], [] => true
  | left :: leftRest, right :: rightRest => left.agrees right && agreeingItems leftRest rightRest
  | _, _ => false

def agreeingEntries : List (String × Value) → List (String × Value) → Bool
  | [], [] => true
  | (leftKey, left) :: leftRest, (rightKey, right) :: rightRest =>
    leftKey == rightKey && left.agrees right && agreeingEntries leftRest rightRest
  | _, _ => false

end

end WorkerMachine
