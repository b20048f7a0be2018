import WorkerMachine.Proofs.Script.Strict
/-!
# Accesses to global memory

Of global memory, an instruction other than a call depends on the slots that it accesses, and changes
the slots that it stores in.  So does a list of such instructions, up to the one that ends the body.
-/

namespace WorkerMachine.Script

/-! ## Global slots -/

def Instruction.globalStores : Instruction → List Slot
  | storeGlobal bank _ slot => [⟨bank, slot⟩]
  | _ => []

def Instruction.globalAccesses : Instruction → List Slot
  | storeGlobal bank _ slot | loadGlobal bank _ slot => [⟨bank, slot⟩]
  | _ => []

def Instruction.goesOn : Instruction → Bool
  | finish | raise _ => false
  | _ => true

/-- The instructions that are reached, as far as they touch registers. -/
def reached (instructions : List Instruction) : List Instruction :=
  instructions.takeWhile Instruction.goesOn

def storedGlobals (instructions : List Instruction) : List Slot :=
  (reached instructions).flatMap Instruction.globalStores

def accessedGlobals (instructions : List Instruction) : List Slot :=
  (reached instructions).flatMap Instruction.globalAccesses

section Slots

variable {instruction : Instruction} {rest : List Instruction} {slot : Slot}

/-- What ends the body accesses nothing. -/
theorem Instruction.mem_storedGlobals (member : slot ∈ instruction.globalStores) :
    slot ∈ storedGlobals (instruction :: rest) := by
  cases instruction <;> try exact (List.not_mem_nil member).elim
  exact List.mem_append_left _ member

theorem Instruction.mem_accessedGlobals (member : slot ∈ instruction.globalAccesses) :
    slot ∈ accessedGlobals (instruction :: rest) := by
  cases instruction <;> try exact (List.not_mem_nil member).elim
  · exact List.mem_append_left _ member
  · exact List.mem_append_left _ member

theorem mem_storedGlobals_cons (goesOn : instruction.goesOn = true) (member : slot ∈ storedGlobals rest) :
    slot ∈ storedGlobals (instruction :: rest) := by
  unfold storedGlobals reached
  rw [List.takeWhile_cons_of_pos goesOn]
  exact List.mem_append_right _ member

theorem mem_accessedGlobals_cons (goesOn : instruction.goesOn = true)
    (member : slot ∈ accessedGlobals rest) : slot ∈ accessedGlobals (instruction :: rest) := by
  unfold accessedGlobals reached
  rw [List.takeWhile_cons_of_pos goesOn]
  exact List.mem_append_right _ member

theorem accessed_of_stored {instructions : List Instruction} (stored : slot ∈ storedGlobals instructions) :
    slot ∈ accessedGlobals instructions := by
  obtain ⟨instruction, isReached, stores⟩ := List.mem_flatMap.mp stored
  refine List.mem_flatMap.mpr ⟨instruction, isReached, ?_⟩
  cases instruction <;> first | exact stores | exact (List.not_mem_nil stores).elim

end Slots

/-! ## What an instruction depends on -/

section Instructions

variable {instruction : Instruction} {context after : Context} {continuation : Continuation}
  {globals later other : RegisterFile} {slot : Slot} {value : Value}

theorem readStrictly_congr {file same : RegisterFile} (sized : same.sizes = file.sizes)
    (agree : same.cell? slot = file.cell? slot) : readStrictly same slot = readStrictly file slot := by
  unfold readStrictly RegisterFile.load RegisterFile.read RegisterFile.overrunAt
  rw [agree, sized]

/-- A value that is stored strictly is found in its slot, and the other slots hold what they held. -/
theorem cell?_of_storeStrictly {file stored : RegisterFile}
    (stores : storeStrictly file slot value = .ok stored) (asked : Slot) :
    stored.cell? asked = if asked = slot then some (.ofValue value) else file.cell? asked := by
  unfold storeStrictly at stores
  cases isStored : file.store slot value with
  | error failure =>
    rw [isStored] at stores
    cases failure <;> cases stores
  | ok kept =>
    rw [isStored] at stores
    cases stores
    obtain ⟨sameBank, inRange, rfl⟩ := RegisterFile.of_store isStored
    rw [RegisterFile.cell?_putCell, Cell.bank_ofValue, sameBank, if_pos inRange]

theorem exists_storeStrictly_congr {file same stored : RegisterFile} (sized : same.sizes = file.sizes)
    (stores : storeStrictly file slot value = .ok stored) :
    ∃ later, storeStrictly same slot value = .ok later ∧ later.sizes = same.sizes := by
  unfold storeStrictly at stores
  cases isStored : file.store slot value with
  | error failure =>
    rw [isStored] at stores
    cases failure <;> cases stores
  | ok kept =>
    obtain ⟨sameBank, inRange, _⟩ := RegisterFile.of_store isStored
    rw [← sized] at inRange
    refine ⟨_, ?_, RegisterFile.sizes_putCell same slot.index (.ofValue value)⟩
    rw [storeStrictly, RegisterFile.store_eq_ok sameBank inRange]

/-- An instruction that accesses no global slot leaves global memory alone, and does the same whatever
is there. -/
theorem Instruction.perform_of_no_accesses
    (performs : instruction.perform context globals = .ok (continuation, after, later))
    (accessesNone : instruction.globalAccesses = []) :
    later = globals ∧ ∀ other, instruction.perform context other = .ok (continuation, after, other) := by
  cases instruction with
  | constant target literal =>
    obtain ⟨locals, stored, ends⟩ := exists_of_bind_eq_ok performs
    cases ends
    refine ⟨rfl, fun other => ?_⟩
    simp only [perform, stored]
    rfl
  | add bank target left right =>
    obtain ⟨first, firstRead, rest⟩ := exists_of_bind_eq_ok performs
    obtain ⟨second, secondRead, rest⟩ := exists_of_bind_eq_ok rest
    obtain ⟨sum, added, rest⟩ := exists_of_bind_eq_ok rest
    obtain ⟨locals, stored, ends⟩ := exists_of_bind_eq_ok rest
    cases ends
    refine ⟨rfl, fun other => ?_⟩
    simp only [perform, firstRead, secondRead, added, stored, ok_bind]
    rfl
  | concat target left right =>
    obtain ⟨first, firstRead, rest⟩ := exists_of_bind_eq_ok performs
    obtain ⟨second, secondRead, rest⟩ := exists_of_bind_eq_ok rest
    obtain ⟨joined, joins, rest⟩ := exists_of_bind_eq_ok rest
    obtain ⟨locals, stored, ends⟩ := exists_of_bind_eq_ok rest
    cases ends
    refine ⟨rfl, fun other => ?_⟩
    simp only [perform, firstRead, secondRead, joins, stored, ok_bind]
    rfl
  | move bank target source =>
    obtain ⟨value, valueRead, rest⟩ := exists_of_bind_eq_ok performs
    obtain ⟨locals, stored, ends⟩ := exists_of_bind_eq_ok rest
    cases ends
    refine ⟨rfl, fun other => ?_⟩
    simp only [perform, valueRead, stored, ok_bind]
    rfl
  | storeReturn bank source slot =>
    obtain ⟨value, valueRead, rest⟩ := exists_of_bind_eq_ok performs
    obtain ⟨results, stored, ends⟩ := exists_of_bind_eq_ok rest
    cases ends
    refine ⟨rfl, fun other => ?_⟩
    simp only [perform, valueRead, stored, ok_bind]
    rfl
  | finish | raise message | sleep milliseconds =>
    cases performs
    exact ⟨rfl, fun _ => rfl⟩
  | storeGlobal bank source slot => cases accessesNone
  | loadGlobal bank target slot => cases accessesNone
  | call package function arguments returns => cases performs

theorem Instruction.cell?_of_perform
    (performs : instruction.perform context globals = .ok (continuation, after, later))
    (unstored : slot ∉ instruction.globalStores) : later.cell? slot = globals.cell? slot := by
  cases instruction with
  | storeGlobal bank source index =>
    obtain ⟨value, _, rest⟩ := exists_of_bind_eq_ok performs
    obtain ⟨stored, stores, ends⟩ := exists_of_bind_eq_ok rest
    cases ends
    rw [cell?_of_storeStrictly stores, if_neg fun same => unstored (List.mem_singleton.mpr same)]
  | loadGlobal bank target index =>
    obtain ⟨value, _, rest⟩ := exists_of_bind_eq_ok performs
    obtain ⟨locals, _, ends⟩ := exists_of_bind_eq_ok rest
    cases ends
    rfl
  | _ => rw [(perform_of_no_accesses performs rfl).1]

/-- In global memory that agrees in the slots that an instruction accesses, the instruction does the
same, and whatever has agreed agrees afterwards. -/
theorem Instruction.exists_perform_congr
    (performs : instruction.perform context globals = .ok (continuation, after, later))
    (sized : other.sizes = globals.sizes)
    (agree : ∀ slot ∈ instruction.globalAccesses, other.cell? slot = globals.cell? slot) :
    ∃ otherLater, instruction.perform context other = .ok (continuation, after, otherLater) ∧
      otherLater.sizes = other.sizes ∧
      ∀ slot, other.cell? slot = globals.cell? slot → otherLater.cell? slot = later.cell? slot := by
  cases instruction with
  | storeGlobal bank source index =>
    obtain ⟨value, valueRead, rest⟩ := exists_of_bind_eq_ok performs
    obtain ⟨stored, stores, ends⟩ := exists_of_bind_eq_ok rest
    cases ends
    obtain ⟨otherStored, storesOther, sizedOther⟩ := exists_storeStrictly_congr sized stores
    refine ⟨otherStored, ?_, sizedOther, fun slot same => ?_⟩
    · simp only [perform, valueRead, storesOther, ok_bind]
      rfl
    · rw [cell?_of_storeStrictly storesOther, cell?_of_storeStrictly stores, same]
  | loadGlobal bank target index =>
    obtain ⟨value, valueRead, rest⟩ := exists_of_bind_eq_ok performs
    obtain ⟨locals, stored, ends⟩ := exists_of_bind_eq_ok rest
    cases ends
    refine ⟨other, ?_, rfl, fun slot same => same⟩
    have otherRead := (readStrictly_congr sized (agree ⟨bank, index⟩ List.mem_cons_self)).trans valueRead
    simp only [perform, otherRead, stored, ok_bind]
    rfl
  | _ =>
    obtain ⟨rfl, performsOther⟩ := perform_of_no_accesses performs rfl
    exact ⟨other, performsOther other, rfl, fun _ => id⟩

theorem Instruction.sizes_of_perform
    (performs : instruction.perform context globals = .ok (continuation, after, later)) :
    later.sizes = globals.sizes := by
  obtain ⟨_, performsAgain, sized, _⟩ := exists_perform_congr performs rfl fun _ _ => rfl
  cases performs.symm.trans performsAgain
  exact sized

end Instructions

/-! ## Whole bodies -/

def performAll : List Instruction → Context → RegisterFile →
    Except Violation (WorkerExit × Context × RegisterFile)
  | [], context, globals => .ok (.halted, context, globals)
  | instruction :: rest, context, globals => do
    let (continuation, after, later) ← instruction.perform context globals
    match continuation with
    | .next => performAll rest after later
    | .stop exit => return (exit, after, later)

theorem Instruction.isCall_of_perform {instruction : Instruction} {context after : Context}
    {continuation : Continuation} {globals later : RegisterFile}
    (performs : instruction.perform context globals = .ok (continuation, after, later)) :
    instruction.isCall = false := by
  cases instruction with
  | call package function arguments returns => cases performs
  | _ => rfl

/-- An instruction behind which others are reached does not stop the body, and the others do. -/
theorem Instruction.goesOn_of_perform {instruction : Instruction} {context after : Context}
    {globals later : RegisterFile}
    (performs : instruction.perform context globals = .ok (.next, after, later)) :
    instruction.goesOn = true := by
  cases instruction with
  | finish | raise message => cases performs
  | _ => rfl

/-- A body whose instructions have been checked, and that makes no calls, is carried out without a
violation, and keeps the sizes of all registers. -/
theorem exists_performAll {footprint : Footprint} {instructions : List Instruction}
    (accepted : ∀ instruction ∈ instructions, footprint.check instruction = .ok ())
    (noCalls : ∀ instruction ∈ instructions, instruction.isCall = false)
    {context : Context} (fits : footprint.Fits context) {globals : RegisterFile}
    (sized : globals.sizes = footprint.globals) :
    ∃ exit after later, performAll instructions context globals = .ok (exit, after, later) ∧
      footprint.Fits after ∧ later.sizes = footprint.globals := by
  induction instructions generalizing context globals with
  | nil => exact ⟨.halted, context, globals, rfl, fits, sized⟩
  | cons instruction rest inductionHypothesis =>
    obtain ⟨continuation, middle, between, performs, fitsMiddle, sizedMiddle⟩ :=
      Instruction.exists_perform (accepted instruction List.mem_cons_self)
        (noCalls instruction List.mem_cons_self) fits sized
    cases continuation with
    | stop exit =>
      refine ⟨exit, middle, between, ?_, fitsMiddle, sizedMiddle⟩
      rw [performAll, performs]
      rfl
    | next =>
      obtain ⟨exit, after, later, performsRest, fitsAfter, sizedAfter⟩ :=
        inductionHypothesis (fun other member => accepted other (List.mem_cons_of_mem _ member))
          (fun other member => noCalls other (List.mem_cons_of_mem _ member)) fitsMiddle sizedMiddle
      refine ⟨exit, after, later, ?_, fitsAfter, sizedAfter⟩
      rw [performAll, performs]
      exact performsRest

end WorkerMachine.Script
