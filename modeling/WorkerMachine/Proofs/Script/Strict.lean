import WorkerMachine.Proofs.Registers.Copying
import WorkerMachine.Script.Interpreter
/-!
# Strict instructions

The interpreter is lenient: a value of the wrong bank is not stored and nobody hears of it, and an
access past the end of a bank shows only in how the worker ends.  Here the instructions are carried
out strictly, so that everything of that kind is a violation.  An instruction that has been checked
against the sizes of the registers is carried out without a violation and keeps these sizes.
-/

namespace WorkerMachine.Script

inductive Violation where
  /-- An access past the end of a bank. -/
  | overrun (overrun : Overrun)
  /-- A value is stored in, or taken for one of, another bank. -/
  | mismatch (actual : Bank)
  /-- The values of a bank cannot be added. -/
  | additionUndefined (bank : Bank)
  /-- The instruction is a call, whose work is not done on registers alone. -/
  | isCall
  deriving DecidableEq, Repr

def Instruction.isCall : Instruction → Bool
  | call _ _ _ _ => true
  | _ => false

def readStrictly (file : RegisterFile) (slot : Slot) : Except Violation Value :=
  match file.load slot with
  | .ok value => .ok value
  | .error overrun => .error (.overrun overrun)

def storeStrictly (file : RegisterFile) (slot : Slot) (value : Value) :
    Except Violation RegisterFile :=
  match file.store slot value with
  | .ok after => .ok after
  | .error (.mismatch actual) => .error (.mismatch actual)
  | .error (.overrun overrun) => .error (.overrun overrun)

def addStrictly (bank : Bank) (left right : Value) : Except Violation Value :=
  if isNumeric bank then
    match sum? left right with
    | some sum => .ok sum
    | none => .error (.mismatch left.bank)
  else .error (.additionUndefined bank)

def joinStrictly : Value → Value → Except Violation Value
  | .text left, .text right => .ok (.text (left ++ right))
  | .text _, right => .error (.mismatch right.bank)
  | left, _ => .error (.mismatch left.bank)

def Instruction.perform (context : Context) (globals : RegisterFile) :
    Instruction → Except Violation (Continuation × Context × RegisterFile)
  | constant target literal => do
    let locals ← storeStrictly context.locals ⟨literal.bank, target⟩ literal.toValue
    return (.next, { context with locals := locals }, globals)
  | add bank target left right => do
    let first ← readStrictly context.locals ⟨bank, left⟩
    let second ← readStrictly context.locals ⟨bank, right⟩
    let locals ← storeStrictly context.locals ⟨bank, target⟩ (← addStrictly bank first second)
    return (.next, { context with locals := locals }, globals)
  | concat target left right => do
    let first ← readStrictly context.locals ⟨.text, left⟩
    let second ← readStrictly context.locals ⟨.text, right⟩
    let locals ← storeStrictly context.locals ⟨.text, target⟩ (← joinStrictly first second)
    return (.next, { context with locals := locals }, globals)
  | move bank target source => do
    let value ← readStrictly context.locals ⟨bank, source⟩
    let locals ← storeStrictly context.locals ⟨bank, target⟩ value
    return (.next, { context with locals := locals }, globals)
  | storeReturn bank source slot => do
    let value ← readStrictly context.locals ⟨bank, source⟩
    let results ← storeStrictly context.results ⟨bank, slot⟩ value
    return (.next, { context with results := results }, globals)
  | finish => return (.stop .returned, context, globals)
  | raise message => return (.stop .halted, context.raise (.ofMessage message), globals)
  | storeGlobal bank source slot => do
    let value ← readStrictly context.locals ⟨bank, source⟩
    let after ← storeStrictly globals ⟨bank, slot⟩ value
    return (.next, context, after)
  | loadGlobal bank target slot => do
    let value ← readStrictly globals ⟨bank, slot⟩
    let locals ← storeStrictly context.locals ⟨bank, target⟩ value
    return (.next, { context with locals := locals }, globals)
  | call _ _ _ _ => throw .isCall
  | sleep _ => return (.next, context, globals)

/-- A context whose registers have the sizes of a footprint. -/
def Footprint.Fits (footprint : Footprint) (context : Context) : Prop :=
  context.locals.sizes = footprint.locals ∧ context.results.sizes = footprint.returns

/-! ## What strict accesses answer -/

theorem ok_bind {First Second : Type} (answer : First)
    (follow : First → Except Violation Second) : (.ok answer >>= follow) = follow answer :=
  rfl

theorem exists_of_bind_eq_ok {First Second : Type} {outcome : Except Violation First}
    {follow : First → Except Violation Second} {result : Second}
    (answers : (outcome >>= follow) = .ok result) :
    ∃ answer, outcome = .ok answer ∧ follow answer = .ok result := by
  cases outcome with
  | ok answer =>
      exact ⟨answer, rfl, answers⟩
  | error violation =>
      cases answers

theorem exists_readStrictly {file : RegisterFile} {sizes : BankSizes} (slot : Slot)
    (sized : file.sizes = sizes) (inRange : slot.index < sizes.get slot.bank) :
    ∃ value, readStrictly file slot = .ok value ∧ value.bank = slot.bank := by
  subst sized
  obtain ⟨value, loaded, sameBank⟩ := RegisterFile.exists_load_of_lt inRange
  refine ⟨value, ?_, sameBank⟩
  rw [readStrictly, loaded]

theorem exists_storeStrictly {file : RegisterFile} {value : Value} {sizes : BankSizes}
    (slot : Slot) (sized : file.sizes = sizes) (sameBank : value.bank = slot.bank)
    (inRange : slot.index < sizes.get slot.bank) :
    ∃ after, storeStrictly file slot value = .ok after ∧ after.sizes = sizes := by
  subst sized
  refine ⟨_, ?_, RegisterFile.sizes_putCell file slot.index (.ofValue value)⟩
  rw [storeStrictly, RegisterFile.store_eq_ok sameBank inRange]

theorem exists_addStrictly {bank : Bank} {left right : Value} (numeric : isNumeric bank = true)
    (leftBank : left.bank = bank) (rightBank : right.bank = bank) :
    ∃ sum, addStrictly bank left right = .ok sum ∧ sum.bank = bank := by
  cases left <;> cases right <;> subst leftBank <;> cases rightBank <;> cases numeric
  · exact ⟨_, rfl, rfl⟩
  · exact ⟨_, rfl, rfl⟩

theorem exists_joinStrictly {left right : Value} (leftBank : left.bank = .text)
    (rightBank : right.bank = .text) :
    ∃ joined, joinStrictly left right = .ok joined ∧ joined.bank = .text := by
  cases left <;> cases leftBank
  cases right <;> cases rightBank
  exact ⟨_, rfl, rfl⟩

/-! ## Checked instructions -/

theorem isNumeric_of_bankError? {bank : Bank} {target left right : Nat}
    (accepted : (Instruction.add bank target left right).bankError? = none) :
    isNumeric bank = true := by
  cases bank <;> first | rfl | cases accepted

/-- An accepted instruction is defined on its bank, and its operands are in range. -/
theorem Footprint.of_check {footprint : Footprint} {instruction : Instruction}
    (accepted : footprint.check instruction = .ok ()) :
    instruction.bankError? = none ∧
      ∀ operand ∈ instruction.operands,
        operand.index < (footprint.sizes operand.role).get operand.bank := by
  unfold check at accepted
  split at accepted
  · cases accepted
  · next defined =>
    exact ⟨defined, (footprint.checkOperands_eq_ok_iff instruction.operands).mp accepted⟩

/-- An accepted instruction other than a call is carried out without a violation, and keeps the
sizes of all registers. -/
theorem Instruction.exists_perform {footprint : Footprint} {instruction : Instruction}
    (accepted : footprint.check instruction = .ok ()) (noCall : instruction.isCall = false)
    {context : Context} (fits : footprint.Fits context) {globals : RegisterFile}
    (sized : globals.sizes = footprint.globals) :
    ∃ continuation after globalsAfter,
      instruction.perform context globals = .ok (continuation, after, globalsAfter) ∧
        footprint.Fits after ∧ globalsAfter.sizes = footprint.globals := by
  obtain ⟨localSizes, resultSizes⟩ := fits
  obtain ⟨defined, inRange⟩ := Footprint.of_check accepted
  cases instruction with
  | constant target literal =>
      obtain ⟨locals, stored, sizes⟩ :=
        exists_storeStrictly ⟨literal.bank, target⟩ localSizes rfl
          (inRange ⟨.locals, literal.bank, target⟩ (by simp [operands]))
      refine ⟨.next, { context with locals := locals }, globals, ?_, ⟨sizes, resultSizes⟩, sized⟩
      simp only [perform, stored]
      rfl
  | add bank target left right =>
      obtain ⟨first, firstRead, firstBank⟩ :=
        exists_readStrictly ⟨bank, left⟩ localSizes
          (inRange ⟨.locals, bank, left⟩ (by simp [operands]))
      obtain ⟨second, secondRead, secondBank⟩ :=
        exists_readStrictly ⟨bank, right⟩ localSizes
          (inRange ⟨.locals, bank, right⟩ (by simp [operands]))
      obtain ⟨sum, added, sumBank⟩ :=
        exists_addStrictly (isNumeric_of_bankError? defined) firstBank secondBank
      obtain ⟨locals, stored, sizes⟩ :=
        exists_storeStrictly ⟨bank, target⟩ localSizes sumBank
          (inRange ⟨.locals, bank, target⟩ (by simp [operands]))
      refine ⟨.next, { context with locals := locals }, globals, ?_, ⟨sizes, resultSizes⟩, sized⟩
      simp only [perform, firstRead, secondRead, added, stored, ok_bind]
      rfl
  | concat target left right =>
      obtain ⟨first, firstRead, firstBank⟩ :=
        exists_readStrictly ⟨.text, left⟩ localSizes
          (inRange ⟨.locals, .text, left⟩ (by simp [operands]))
      obtain ⟨second, secondRead, secondBank⟩ :=
        exists_readStrictly ⟨.text, right⟩ localSizes
          (inRange ⟨.locals, .text, right⟩ (by simp [operands]))
      obtain ⟨joined, joins, joinedBank⟩ := exists_joinStrictly firstBank secondBank
      obtain ⟨locals, stored, sizes⟩ :=
        exists_storeStrictly ⟨.text, target⟩ localSizes joinedBank
          (inRange ⟨.locals, .text, target⟩ (by simp [operands]))
      refine ⟨.next, { context with locals := locals }, globals, ?_, ⟨sizes, resultSizes⟩, sized⟩
      simp only [perform, firstRead, secondRead, joins, stored, ok_bind]
      rfl
  | move bank target source =>
      obtain ⟨value, valueRead, valueBank⟩ :=
        exists_readStrictly ⟨bank, source⟩ localSizes
          (inRange ⟨.locals, bank, source⟩ (by simp [operands]))
      obtain ⟨locals, stored, sizes⟩ :=
        exists_storeStrictly ⟨bank, target⟩ localSizes valueBank
          (inRange ⟨.locals, bank, target⟩ (by simp [operands]))
      refine ⟨.next, { context with locals := locals }, globals, ?_, ⟨sizes, resultSizes⟩, sized⟩
      simp only [perform, valueRead, stored, ok_bind]
      rfl
  | storeReturn bank source slot =>
      obtain ⟨value, valueRead, valueBank⟩ :=
        exists_readStrictly ⟨bank, source⟩ localSizes
          (inRange ⟨.locals, bank, source⟩ (by simp [operands]))
      obtain ⟨results, stored, sizes⟩ :=
        exists_storeStrictly ⟨bank, slot⟩ resultSizes valueBank
          (inRange ⟨.returns, bank, slot⟩ (by simp [operands]))
      refine ⟨.next, { context with results := results }, globals, ?_, ⟨localSizes, sizes⟩, sized⟩
      simp only [perform, valueRead, stored, ok_bind]
      rfl
  | finish =>
      exact ⟨.stop .returned, context, globals, rfl, ⟨localSizes, resultSizes⟩, sized⟩
  | raise message =>
      exact ⟨.stop .halted, _, globals, rfl, ⟨localSizes, resultSizes⟩, sized⟩
  | storeGlobal bank source slot =>
      obtain ⟨value, valueRead, valueBank⟩ :=
        exists_readStrictly ⟨bank, source⟩ localSizes
          (inRange ⟨.locals, bank, source⟩ (by simp [operands]))
      obtain ⟨globalsAfter, stored, sizes⟩ :=
        exists_storeStrictly ⟨bank, slot⟩ sized valueBank
          (inRange ⟨.globals, bank, slot⟩ (by simp [operands]))
      refine ⟨.next, context, globalsAfter, ?_, ⟨localSizes, resultSizes⟩, sizes⟩
      simp only [perform, valueRead, stored, ok_bind]
      rfl
  | loadGlobal bank target slot =>
      obtain ⟨value, valueRead, valueBank⟩ :=
        exists_readStrictly ⟨bank, slot⟩ sized
          (inRange ⟨.globals, bank, slot⟩ (by simp [operands]))
      obtain ⟨locals, stored, sizes⟩ :=
        exists_storeStrictly ⟨bank, target⟩ localSizes valueBank
          (inRange ⟨.locals, bank, target⟩ (by simp [operands]))
      refine ⟨.next, { context with locals := locals }, globals, ?_, ⟨sizes, resultSizes⟩, sized⟩
      simp only [perform, valueRead, stored, ok_bind]
      rfl
  | call package function arguments returns =>
      cases noCall
  | sleep milliseconds =>
      exact ⟨.next, context, globals, rfl, ⟨localSizes, resultSizes⟩, sized⟩

end WorkerMachine.Script
