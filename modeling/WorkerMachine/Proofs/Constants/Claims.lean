import WorkerMachine.Proofs.Clearance.Passing
import WorkerMachine.Proofs.Constants.Verdicts
import WorkerMachine.Proofs.Script.Following
/-!
# Claims on packages

A thread that the gate lets run the init of a package has a claim on the package until the cell of the
package is settled.  Meanwhile nobody else touches the list of the constants that wait for the package:
either the list is as it was declared, or the thread has taken the constants off it.
-/

namespace WorkerMachine

open Clearance

def Machine.pendingOf (machine : Machine) (package : String) : List ConstantAttribute :=
  (machine.pending.get? package).getD []

/-- The claim of a thread on a package whose init it runs. -/
structure Claim where
  package : String
  /-- Whether the thread has taken the constants that wait for the package off the list. -/
  taken : Bool
  deriving DecidableEq

/-- What an init may have come to, and the constants that wait afterwards. -/
inductive Package.EndsAs (package : Package) (constants : List ConstantAttribute) :
    Except Fault Unit → List ConstantAttribute → Prop
  /-- All constants have been resolved. -/
  | resolved : package.verdict constants = .ok () → EndsAs package constants (.ok ()) []
  /-- A constant cannot be read. -/
  | refused {fault : Fault} : package.verdict constants = .error fault →
      EndsAs package constants (.error fault) constants
  /-- The init unit has failed. -/
  | failed {fault : Fault} : package.init.isSome = true → fault.isFatal = true →
      EndsAs package constants (.error fault) constants

variable {Thread Answer : Type} [DecidableEq Thread] {program : Program}
  {declared : String → List ConstantAttribute}

def Claim.left (declared : String → List ConstantAttribute) (claim : Claim) :
    List ConstantAttribute :=
  if claim.taken then [] else declared claim.package

/-- The claims of threads fit a machine on which the constants of a program wait as declared until they
are resolved. -/
structure Claimed (program : Program) (declared : String → List ConstantAttribute)
    (machine : Machine) (hands : Thread → List Claim) : Prop where
  sized : machine.globals.sizes = program.globalSizes
  running : ∀ thread, ∀ claim ∈ hands thread, machine.gate.stage claim.package = .running
  left : ∀ thread, ∀ claim ∈ hands thread, machine.pendingOf claim.package = claim.left declared
  /-- No two threads have a claim on one package. -/
  apart : ∀ thread other, ∀ claim ∈ hands thread, ∀ same ∈ hands other,
    claim.package = same.package → thread = other
  once : ∀ thread, ((hands thread).map Claim.package).Nodup
  untouched : ∀ package, machine.gate.stage package = .untouched →
    machine.pendingOf package = declared package
  settled : ∀ name package outcome, program.package name = .ok package →
    machine.gate.stage name = .settled outcome →
      package.EndsAs (declared name) outcome (machine.pendingOf name)

/-- The discipline of threads that resolve constants only while they have a claim. -/
def Discipline.claiming (Thread : Type) (program : Program)
    (declared : String → List ConstantAttribute) : Discipline Thread Machine (List Claim) where
  fits := Claimed program declared
  permits := fun _ _ => True
  excuses := fun _ _ _ => True
  permits_refl := fun _ => trivial

namespace Claimed

variable {machine later : Machine} {hands : Thread → List Claim} {thread : Thread}
  {token exchanged rest : List Claim} {package : String} {taken : Bool}

omit [DecidableEq Thread] in
/-- What leaves global memory, the stages and the waiting constants alone does not matter to claims. -/
theorem of_same (claimed : Claimed program declared machine hands)
    (globals : later.globals.sizes = machine.globals.sizes)
    (stage : later.gate.stage = machine.gate.stage) (pending : later.pending = machine.pending) :
    Claimed program declared later hands := by
  have pendingOf : later.pendingOf = machine.pendingOf := by
    unfold Machine.pendingOf
    rw [pending]
  exact
    { sized := globals.trans claimed.sized
      running := by rw [stage]; exact claimed.running
      left := by rw [pendingOf]; exact claimed.left
      apart := claimed.apart
      once := claimed.once
      untouched := by rw [stage, pendingOf]; exact claimed.untouched
      settled := by rw [stage, pendingOf]; exact claimed.settled }

omit [DecidableEq Thread] in
theorem alone (claimed : Claimed program declared machine hands)
    (holding : hands thread = ⟨package, taken⟩ :: rest) {other : Thread} (different : other ≠ thread)
    {claim : Claim} (member : claim ∈ hands other) : claim.package ≠ package := by
  intro same
  have mine : (⟨package, taken⟩ : Claim) ∈ hands thread := by
    rw [holding]
    exact List.mem_cons_self
  exact different (claimed.apart other thread claim member _ mine same)

omit [DecidableEq Thread] in
theorem rest_ne (claimed : Claimed program declared machine hands)
    (holding : hands thread = ⟨package, taken⟩ :: rest) {claim : Claim} (member : claim ∈ rest) :
    claim.package ≠ package := by
  have once := claimed.once thread
  rw [holding, List.map_cons, List.nodup_cons] at once
  intro same
  exact once.1 (List.mem_map.mpr ⟨claim, member, same⟩)

/-- A turn in the claims on one package, made by a thread beside which nobody claims the package. -/
theorem turn (claimed : Claimed program declared machine hands) (holding : hands thread = token)
    (alone : ∀ other, other ≠ thread → ∀ claim ∈ hands other, claim.package ≠ package)
    (globals : later.globals = machine.globals)
    (stages : ∀ other, other ≠ package → later.gate.stage other = machine.gate.stage other)
    (pending : ∀ other, other ≠ package → later.pendingOf other = machine.pendingOf other)
    (others : ∀ claim ∈ exchanged, claim.package ≠ package → claim ∈ token)
    (once : (exchanged.map Claim.package).Nodup)
    (own : ∀ claim ∈ exchanged, claim.package = package →
      later.gate.stage package = .running ∧ later.pendingOf package = claim.left declared)
    (untouched : later.gate.stage package = .untouched →
      later.pendingOf package = declared package)
    (settled : ∀ found outcome, program.package package = .ok found →
      later.gate.stage package = .settled outcome →
        found.EndsAs (declared package) outcome (later.pendingOf package)) :
    Claimed program declared later (Function.update hands thread exchanged) := by
  -- A claim of anybody is one of before on another package, or one of the thread on this one.
  have cases : ∀ holder, ∀ claim ∈ Function.update hands thread exchanged holder,
      claim.package ≠ package ∧ claim ∈ hands holder ∨
        claim.package = package ∧ holder = thread ∧ claim ∈ exchanged := by
    intro holder claim member
    by_cases isThread : holder = thread
    · subst isThread
      rw [Function.update_self] at member
      by_cases onPackage : claim.package = package
      · exact .inr ⟨onPackage, rfl, member⟩
      · left
        rw [holding]
        exact ⟨onPackage, others claim member onPackage⟩
    · rw [Function.update_of_ne isThread] at member
      exact .inl ⟨alone holder isThread claim member, member⟩
  refine ⟨?_, ?_, ?_, ?_, ?_, ?_, ?_⟩
  · rw [globals]
    exact claimed.sized
  · intro holder claim member
    obtain ⟨onOther, wasHeld⟩ | ⟨onPackage, _, isOwn⟩ := cases holder claim member
    · rw [stages _ onOther]
      exact claimed.running holder claim wasHeld
    · rw [onPackage]
      exact (own claim isOwn onPackage).1
  · intro holder claim member
    obtain ⟨onOther, wasHeld⟩ | ⟨onPackage, _, isOwn⟩ := cases holder claim member
    · rw [pending _ onOther]
      exact claimed.left holder claim wasHeld
    · rw [onPackage]
      exact (own claim isOwn onPackage).2
  · intro holder other claim member same isSame samePackage
    obtain ⟨onOther, wasHeld⟩ | ⟨onPackage, isThread, _⟩ := cases holder claim member
    · obtain ⟨_, alsoHeld⟩ | ⟨isPackage, _, _⟩ := cases other same isSame
      · exact claimed.apart holder other claim wasHeld same alsoHeld samePackage
      · exact absurd (samePackage.trans isPackage) onOther
    · obtain ⟨onOther, _⟩ | ⟨_, alsoThread, _⟩ := cases other same isSame
      · exact absurd (samePackage.symm.trans onPackage) onOther
      · exact isThread.trans alsoThread.symm
  · intro holder
    by_cases isThread : holder = thread
    · subst isThread
      rw [Function.update_self]
      exact once
    · rw [Function.update_of_ne isThread]
      exact claimed.once holder
  · intro asked isUntouched
    by_cases isPackage : asked = package
    · subst isPackage
      exact untouched isUntouched
    · rw [stages _ isPackage] at isUntouched
      rw [pending _ isPackage]
      exact claimed.untouched asked isUntouched
  · intro name found outcome isFound isSettled
    by_cases isPackage : name = package
    · subst isPackage
      exact settled found outcome isFound isSettled
    · rw [stages _ isPackage] at isSettled
      rw [pending _ isPackage]
      exact claimed.settled name found outcome isFound isSettled

theorem claim (claimed : Claimed program declared machine hands) (holding : hands thread = rest)
    (untouched : machine.gate.stage package = .untouched) {gate : Gate}
    (running : gate.stage = Function.update machine.gate.stage package .running) :
    Claimed program declared { machine with gate := gate }
      (Function.update hands thread (⟨package, false⟩ :: rest)) := by
  have unclaimed : ∀ holder, ∀ claim ∈ hands holder, claim.package ≠ package := by
    intro holder claim member same
    have isRunning := claimed.running holder claim member
    rw [same, untouched] at isRunning
    cases isRunning
  have isRunning : gate.stage package = .running := by
    rw [running, Function.update_self]
  refine claimed.turn holding (fun other _ => unclaimed other) ?_ ?_ ?_ ?_ ?_ ?_ ?_ ?_
  · rfl
  · intro other different
    change gate.stage other = _
    rw [running, Function.update_of_ne different]
  · exact fun _ _ => rfl
  · intro claim member different
    obtain rfl | isRest := List.mem_cons.mp member
    · exact absurd rfl different
    · exact isRest
  · rw [List.map_cons, List.nodup_cons]
    refine ⟨fun member => ?_, holding ▸ claimed.once thread⟩
    obtain ⟨claim, isRest, same⟩ := List.mem_map.mp member
    exact unclaimed thread claim (holding ▸ isRest) same
  · intro claim member same
    refine ⟨isRunning, ?_⟩
    obtain rfl | isRest := List.mem_cons.mp member
    · exact claimed.untouched package untouched
    · exact absurd same (unclaimed thread claim (holding ▸ isRest))
  · intro isUntouched
    cases isRunning.symm.trans isUntouched
  · intro found outcome _ isSettled
    cases isRunning.symm.trans isSettled

/-- A thread takes the waiting constants of a claimed package off the list, or puts them back. -/
theorem relist (claimed : Claimed program declared machine hands)
    (holding : hands thread = ⟨package, taken⟩ :: rest) (now : Bool)
    {waiting : List ConstantAttribute} (isLeft : waiting = (⟨package, now⟩ : Claim).left declared) :
    Claimed program declared { machine with pending := machine.pending.insert package waiting }
      (Function.update hands thread (⟨package, now⟩ :: rest)) := by
  have isRunning : machine.gate.stage package = .running :=
    claimed.running thread ⟨package, taken⟩ (holding ▸ List.mem_cons_self)
  have pendingOf : ∀ asked, ({ machine with pending := machine.pending.insert package waiting } :
      Machine).pendingOf asked = if package = asked then waiting else machine.pendingOf asked := by
    intro asked
    unfold Machine.pendingOf
    rw [Table.get?_insert]
    split <;> rfl
  refine claimed.turn holding (fun other different _ => claimed.alone holding different)
    ?_ ?_ ?_ ?_ ?_ ?_ ?_ ?_
  · rfl
  · exact fun _ _ => rfl
  · intro other different
    rw [pendingOf, if_neg (Ne.symm different)]
  · intro claim member different
    obtain rfl | isRest := List.mem_cons.mp member
    · exact absurd rfl different
    · exact List.mem_cons_of_mem _ isRest
  · have once := claimed.once thread
    rw [holding] at once
    exact once
  · intro claim member same
    refine ⟨isRunning, ?_⟩
    rw [pendingOf, if_pos rfl, isLeft]
    obtain rfl | isRest := List.mem_cons.mp member
    · rfl
    · exact absurd same (claimed.rest_ne holding isRest)
  · intro isUntouched
    cases isRunning.symm.trans isUntouched
  · intro found outcome _ isSettled
    cases isRunning.symm.trans isSettled

theorem release (claimed : Claimed program declared machine hands)
    (holding : hands thread = ⟨package, taken⟩ :: rest) {gate : Gate} {stage : Stage}
    (isStage : gate.stage = Function.update machine.gate.stage package stage)
    (untouched : stage = .untouched → taken = false)
    (settled : ∀ found outcome, program.package package = .ok found → stage = .settled outcome →
      found.EndsAs (declared package) outcome ((⟨package, taken⟩ : Claim).left declared)) :
    Claimed program declared { machine with gate := gate } (Function.update hands thread rest) := by
  have isLeft : machine.pendingOf package = (⟨package, taken⟩ : Claim).left declared :=
    claimed.left thread ⟨package, taken⟩ (holding ▸ List.mem_cons_self)
  have isStageOf : gate.stage package = stage := by
    rw [isStage, Function.update_self]
  refine claimed.turn holding (fun other different _ => claimed.alone holding different)
    ?_ ?_ ?_ ?_ ?_ ?_ ?_ ?_
  · rfl
  · intro other different
    change gate.stage other = _
    rw [isStage, Function.update_of_ne different]
  · exact fun _ _ => rfl
  · exact fun claim member _ => List.mem_cons_of_mem _ member
  · have once := claimed.once thread
    rw [holding, List.map_cons] at once
    exact once.of_cons
  · exact fun claim member same => absurd same (claimed.rest_ne holding member)
  · intro isUntouched
    have notTaken := untouched (isStageOf.symm.trans isUntouched)
    subst notTaken
    exact isLeft
  · intro found outcome isFound isSettled
    have ends := settled found outcome isFound (isStageOf.symm.trans isSettled)
    rw [← isLeft] at ends
    exact ends

end Claimed

end WorkerMachine
