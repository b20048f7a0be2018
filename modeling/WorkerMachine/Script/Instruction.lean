import WorkerMachine.Program.Constant
import WorkerMachine.Registers.Sizes
/-!
# Instructions of scripts

A script is a list of instructions without jumps.  Before a program runs, every operand is checked
against the banks that it selects from; only the operands of calls are checked when the call runs.
-/

namespace WorkerMachine.Script

/-- One instruction.  Operands without further mention are indices of the worker's local banks. -/
inductive Instruction where
  /-- Store a literal. -/
  | constant (target : Nat) (literal : Constant)
  /-- Store the sum of two numbers of one bank; integers wrap around. -/
  | add (bank : Bank) (target left right : Nat)
  /-- Store two texts joined. -/
  | concat (target left right : Nat)
  /-- Copy a value inside a local bank. -/
  | move (bank : Bank) (target source : Nat)
  /-- Copy a local value to a return slot. -/
  | storeReturn (bank : Bank) (source slot : Nat)
  /-- End the body and return the values of the return slots. -/
  | finish
  /-- End the body with an error. -/
  | raise (message : String)
  /-- Copy a local value to a global slot. -/
  | storeGlobal (bank : Bank) (source slot : Nat)
  /-- Copy a global value to a local slot. -/
  | loadGlobal (bank : Bank) (target slot : Nat)
  /-- Call a function with local slots as arguments and as targets of its results. -/
  | call (package function : String) (arguments returns : List Nat)
  /-- Let time pass. -/
  | sleep (milliseconds : Nat)
  deriving DecidableEq, Repr, Inhabited

inductive OperandRole where
  | locals
  | returns
  | globals
  deriving DecidableEq, Repr

def OperandRole.name : OperandRole → String
  | locals => "local"
  | returns => "return"
  | globals => "global"

inductive InstructionError where
  | outOfRange (role : OperandRole) (bank : Bank) (index available : Nat)
  | additionUndefined (bank : Bank)
  deriving DecidableEq, Repr

def InstructionError.message : InstructionError → String
  | outOfRange role bank index available =>
    role.name ++ " " ++ bank.name ++ " register " ++ toString index ++ " out of range ("
      ++ toString available ++ " declared)"
  | additionUndefined bank => "add is not defined on " ++ bank.name ++ " registers"

/-- The sizes of the registers that the instructions of one worker work on. -/
structure Footprint where
  locals : BankSizes
  returns : BankSizes
  globals : BankSizes
  deriving DecidableEq, Repr

def Footprint.sizes (footprint : Footprint) : OperandRole → BankSizes
  | .locals => footprint.locals
  | .returns => footprint.returns
  | .globals => footprint.globals

/-- An operand: the registers it selects from, its bank and its index. -/
structure Operand where
  role : OperandRole
  bank : Bank
  index : Nat
  deriving DecidableEq, Repr

/-- The operands of an instruction in the order in which they are checked; those of calls are left
to the call. -/
def Instruction.operands : Instruction → List Operand
  | constant target literal => [⟨.locals, literal.bank, target⟩]
  | add bank target left right =>
    [⟨.locals, bank, target⟩, ⟨.locals, bank, left⟩, ⟨.locals, bank, right⟩]
  | concat target left right =>
    [⟨.locals, .text, target⟩, ⟨.locals, .text, left⟩, ⟨.locals, .text, right⟩]
  | move bank target source => [⟨.locals, bank, target⟩, ⟨.locals, bank, source⟩]
  | storeReturn bank source slot => [⟨.locals, bank, source⟩, ⟨.returns, bank, slot⟩]
  | storeGlobal bank source slot => [⟨.locals, bank, source⟩, ⟨.globals, bank, slot⟩]
  | loadGlobal bank target slot => [⟨.locals, bank, target⟩, ⟨.globals, bank, slot⟩]
  | finish | raise _ | call _ _ _ _ | sleep _ => []

/-- Whether an instruction is defined on its bank at all: only numbers can be added. -/
def Instruction.bankError? : Instruction → Option InstructionError
  | add bank _ _ _ =>
    match bank with
    | .int | .float => none
    | other => some (.additionUndefined other)
  | _ => none

def Footprint.checkOperand (footprint : Footprint) (operand : Operand) :
    Except InstructionError Unit :=
  let available := (footprint.sizes operand.role).get operand.bank
  if operand.index < available then .ok ()
  else .error (.outOfRange operand.role operand.bank operand.index available)

def Footprint.checkOperands (footprint : Footprint) : List Operand → Except InstructionError Unit
  | [] => .ok ()
  | operand :: rest =>
    match footprint.checkOperand operand with
    | .error error => .error error
    | .ok () => footprint.checkOperands rest

def Footprint.check (footprint : Footprint) (instruction : Instruction) :
    Except InstructionError Unit :=
  match instruction.bankError? with
  | some error => .error error
  | none => footprint.checkOperands instruction.operands

/-- The operands that are accepted are those in range. -/
theorem Footprint.checkOperands_eq_ok_iff (footprint : Footprint) (operands : List Operand) :
    footprint.checkOperands operands = .ok () ↔
      ∀ operand ∈ operands, operand.index < (footprint.sizes operand.role).get operand.bank := by
  induction operands with
  | nil => simp [checkOperands]
  | cons operand rest inductionHypothesis =>
    by_cases inRange : operand.index < (footprint.sizes operand.role).get operand.bank
    · simp [checkOperands, checkOperand, inRange, inductionHypothesis]
    · simp [checkOperands, checkOperand, inRange]

end WorkerMachine.Script
