import WorkerMachine.Value.Basic
/-!
# Identity of values

Whether two values are the same can be decided.  Unlike equality of values, identity compares the
bits of floating-point numbers, so every value is the same as itself.
-/

namespace WorkerMachine

mutual

def Value.same : Value → Value → Bool
  | .int left, .int right => left == right
  | .float left, .float right => left == right
  | .text left, .text right => left == right
  | .boolean left, .boolean right => left == right
  | .blob left, .blob right => left == right
  | .reference left, .reference right => left.same right
  | _, _ => false

def Reference.same : Reference → Reference → Bool
  | .nil, .nil => true
  | .array left, .array right => sameItems left right
  | .map left, .map right => sameEntries left right
  | .error left, .error right => left == right
  | _, _ => false

def sameItems : List Value → List Value → Bool
  | [], [] => true
  | left :: leftRest, right :: rightRest => left.same right && sameItems leftRest rightRest
  | _, _ => false

def sameEntries : List (String × Value) → List (String × Value) → Bool
  | [], [] => true
  | (leftKey, left) :: leftRest, (rightKey, right) :: rightRest =>
    leftKey == rightKey && left.same right && sameEntries leftRest rightRest
  | _, _ => false

end

mutual

/-- Values are found to be the same exactly when they are. -/
theorem Value.same_iff : ∀ left right : Value, left.same right = true ↔ left = right
  | .int _, right | .float _, right | .text _, right | .boolean _, right | .blob _, right => by
    cases right <;> simp [Value.same]
  | .reference left, right => by
    cases right <;> simp [Value.same, Reference.same_iff left]

/-- References are found to be the same exactly when they are. -/
theorem Reference.same_iff : ∀ left right : Reference, left.same right = true ↔ left = right
  | .nil, right | .error _, right => by cases right <;> simp [Reference.same]
  | .array left, right => by cases right <;> simp [Reference.same, sameItems_iff left]
  | .map left, right => by cases right <;> simp [Reference.same, sameEntries_iff left]

/-- Lists of values are found to be the same exactly when they are. -/
theorem sameItems_iff : ∀ left right : List Value, sameItems left right = true ↔ left = right
  | [], right => by cases right <;> simp [sameItems]
  | left :: leftRest, right => by
    cases right <;> simp [sameItems, Value.same_iff left, sameItems_iff leftRest]

/-- Lists of entries are found to be the same exactly when they are. -/
theorem sameEntries_iff :
    ∀ left right : List (String × Value), sameEntries left right = true ↔ left = right
  | [], right => by cases right <;> simp [sameEntries]
  | (leftKey, left) :: leftRest, [] => by simp [sameEntries]
  | (leftKey, left) :: leftRest, (rightKey, right) :: rightRest => by
    simp [sameEntries, Value.same_iff left, sameEntries_iff leftRest, and_assoc]

end

instance : DecidableEq Value := fun left right =>
  decidable_of_iff (left.same right = true) (Value.same_iff left right)

instance : DecidableEq Reference := fun left right =>
  decidable_of_iff (left.same right = true) (Reference.same_iff left right)

end WorkerMachine
