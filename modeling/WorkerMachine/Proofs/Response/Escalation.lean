import WorkerMachine.Proofs.Invocation.Verdict
import WorkerMachine.Proofs.Response.Aggregation
/-!
# Fatal faults

A response keeps the first fault, and so does the verdict on an invocation.  A fatal fault gets through
to the caller when it comes before every other fault, and is lost behind an earlier one.
-/

namespace WorkerMachine

/-- A fault is the first one among what several workers tell. -/
def FirstFault {Told : Type} (fault? : Told → Option Fault) (told : List Told) (fault : Fault) :
    Prop :=
  ∃ earlier first later, told = earlier ++ first :: later ∧ fault? first = some fault ∧
    ∀ other ∈ earlier, fault? other = none

theorem firstFault_iff {Told : Type} {fault? : Told → Option Fault} {told : List Told}
    {fault : Fault} : FirstFault fault? told fault ↔ told.findSome? fault? = some fault := by
  rw [List.findSome?_eq_some_iff]
  rfl

theorem Contribution.verdict_eq_fault_iff (contributions : List Contribution) (fault : Fault) :
    verdict contributions = .fault fault ↔ FirstFault fault? contributions fault := by
  rw [firstFault_iff]
  unfold verdict
  cases contributions.findSome? fault? with
  | some first =>
      simp
  | none =>
      cases contributions.findSome? error? with
      | some _ | none =>
          simp

theorem Callable.verdict_eq_fault_iff (unit : Callable) (endings : List Ending) {fault : Fault}
    (fatal : fault.isFatal = true) :
    unit.verdict endings = .error (.fault fault) ↔
      FirstFault (fun ending => ending.fault? unit ending.worker) endings fault := by
  rw [firstFault_iff]
  unfold verdict
  cases endings.findSome? fun ending => ending.fault? unit ending.worker with
  | some first =>
      simp
  | none =>
      cases endings.findSome? fun ending => ending.raised? unit ending.worker with
      | some error =>
          simp only [Except.error.injEq, Interruption.fault.injEq, reduceCtorEq, iff_false]
          rintro rfl
          cases fatal
      | none =>
          simp

/-- Once some worker has broken down the outcome is a fault, namely the first one of all that count:
it is fatal exactly when that one is.  The same holds of the verdict on the workers of an invocation.
-/
theorem fatal_outcome_iff {types : List DataType} {returns : Layout}
    (laidOut : Layout.ofTypes types = .ok returns) (waits : Bool) {events : List ResponseEvent}
    (fits : ∀ event ∈ events, event.Fits returns) (unit : Callable) (endings : List Ending) :
    ((∃ contribution ∈ (Account.ofEvents events).accepted, ∃ fault,
        contribution.outcome = .faulted fault) →
      ∃ fault, ((Response.ofReturns returns waits).after events).outcome = .fault fault) ∧
    (∀ fault, ((Response.ofReturns returns waits).after events).outcome = .fault fault ↔
      FirstFault Contribution.fault? (Account.ofEvents events).accepted fault) ∧
    ∀ fault, fault.isFatal = true → (unit.verdict endings = .error (.fault fault) ↔
      FirstFault (fun ending => ending.fault? unit ending.worker) endings fault) := by
  have reached : ((Response.ofReturns returns waits).after events).outcome =
      Contribution.verdict (Account.ofEvents events).accepted := by
    rw [Account.after_ofReturns (Layout.sound_of_ofTypes laidOut) waits fits]
    exact Account.outcome_response _ returns waits _
  refine ⟨?_, fun fault => ?_, fun fault fatal => unit.verdict_eq_fault_iff endings fatal⟩
  · rintro ⟨contribution, member, fault, breaksDown⟩
    have someFault : ((Account.ofEvents events).accepted.findSome? Contribution.fault?).isSome := by
      rw [List.findSome?_isSome_iff]
      exact ⟨contribution, member, by rw [Contribution.fault?, breaksDown]; rfl⟩
    obtain ⟨first, isFirst⟩ := Option.isSome_iff_exists.mp someFault
    refine ⟨first, ?_⟩
    rw [reached, Contribution.verdict_eq_fault_iff, firstFault_iff]
    exact isFirst
  · rw [reached]
    exact Contribution.verdict_eq_fault_iff _ fault

/-- A failure of a package that comes first gets through. -/
theorem first_package_failure_escalates :
    let events : List ResponseEvent :=
      [.expected 3, .contributed ⟨4, .raised (.ofMessage "boom"), .empty⟩,
        .contributed ⟨5, .faulted (.packageInitFailure "lib" "error: no"), .empty⟩,
        .contributed ⟨6, .faulted (.schedule "lost"), .empty⟩]
    Layout.ofTypes [] = .ok .empty ∧ (∀ event ∈ events, event.Fits .empty) ∧
      (Fault.packageInitFailure "lib" "error: no").isFatal = true ∧
      ((Response.ofReturns .empty true).after events).outcome =
        .fault (.packageInitFailure "lib" "error: no") := by
  intro events
  have fits : ∀ event ∈ events, event.Fits .empty := by
    intro event member
    simp only [events, List.mem_cons, List.not_mem_nil, or_false] at member
    rcases member with rfl | rfl | rfl | rfl
    · trivial
    all_goals exact (BankSizes.covers_iff _ _).mpr fun bank => by cases bank <;> decide
  refine ⟨rfl, fits, rfl, ?_⟩
  have escalates := (fatal_outcome_iff Layout.ofTypes_nil true fits default []).2.1
    (.packageInitFailure "lib" "error: no")
  exact escalates.mpr (firstFault_iff.mpr rfl)

/-- A failure of a package that comes after another fault is lost: the response is complete, and what
its caller gets is not fatal. -/
theorem later_package_failure_lost :
    let events : List ResponseEvent :=
      [.expected 2, .contributed ⟨1, .faulted (.schedule "lost"), .empty⟩,
        .contributed ⟨2, .faulted (.packageInitFailure "lib" "error: no"), .empty⟩]
    let response := (Response.ofReturns .empty true).after events
    response.isComplete = true ∧
      (∃ contribution ∈ (Account.ofEvents events).accepted, ∃ fault,
        contribution.outcome = .faulted fault ∧ fault.isFatal = true) ∧
      ¬∃ fault, response.outcome = .fault fault ∧ fault.isFatal = true := by
  intro events response
  refine ⟨by decide, ⟨⟨2, .faulted (.packageInitFailure "lib" "error: no"), .empty⟩, ?_, _, rfl, rfl⟩,
    ?_⟩
  · exact List.mem_cons_of_mem _ List.mem_cons_self
  · rintro ⟨fault, isOutcome, fatal⟩
    have isSchedule : response.outcome = .fault (.schedule "lost") := rfl
    rw [isSchedule] at isOutcome
    cases isOutcome
    cases fatal

end WorkerMachine
