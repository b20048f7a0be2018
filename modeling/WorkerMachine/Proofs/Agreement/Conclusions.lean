import WorkerMachine.Proofs.Settling.Finishes
import WorkerMachine.Proofs.Settling.Joins
/-!
# What a call concludes

A call concludes from the contributions that count, in the order in which they have come.  Where it is
known how workers conduct themselves that are given such registers, each contribution is told by how its
task has finished, so the conclusion is told by the order in which the tasks finish.
-/

namespace WorkerMachine

/-! ## Conclusions from contributions -/

/-- What a call comes to, told for all registers that its results may be meant for: a fault, or values.
The values can be raised from fresh registers, and are taken in wherever else they are delivered. -/
inductive Layout.Concludes (returns : Layout)
    (conclude : RegisterFile → List Nat → Except Interruption Unit × RegisterFile) : Prop
  | failed (fault : Fault) :
      (∀ target indices, conclude target indices = (.error (.fault fault), target)) →
      Concludes returns conclude
  | returned (values : List Value) (fresh : RegisterFile) :
      conclude (.ofSizes returns.sizes) returns.indices = (.ok (), fresh) →
      Marshalling.raise returns fresh = .ok values →
      (∀ (target : RegisterFile) (indices : List Nat), indices.length = returns.length →
        target.Covers (returns.slotsAt indices) →
          ∃ after, conclude target indices = (.ok (), after) ∧
            target.TakesIn (returns.slotsAt indices) values after) →
      Concludes returns conclude

namespace Contribution

variable {returns : Layout} {contributions firsts seconds : List Contribution}

theorem of_values? {contribution : Contribution} {result : RegisterFile}
    (brings : contribution.values? = some result) :
    contribution.outcome = .returned ∧ contribution.result = result := by
  unfold values? at brings
  split at brings
  · next returned => exact ⟨returned, Option.some.inj brings⟩
  · cases brings

/-- The registers that results are delivered from: those of the first worker that has returned, or fresh
ones. -/
def source (returns : Layout) (contributions : List Contribution) : RegisterFile :=
  (contributions.findSome? values?).getD (.ofSizes returns.sizes)

/-- What a call answers to which these contributions have been made, in this order. -/
def conclude (returns : Layout) (contributions : List Contribution) (target : RegisterFile)
    (indices : List Nat) : Except Interruption Unit × RegisterFile :=
  match verdict contributions with
  | .values =>
    match Marshalling.copyReturns returns (source returns contributions) returns.indices target
      indices with
    | (delivered, .ok ()) => (.ok (), delivered)
    | (delivered, .error overrun) => (.error overrun.interruption, delivered)
  | .error error => (.error (.fault (.propagated error)), target)
  | .fault fault => (.error (.fault fault), target)

theorem conclude_response (sound : returns.Sound) {account : Account}
    (fits : ∀ contribution ∈ account.accepted, contribution.Fits returns) (waits : Bool)
    (completions : Nat) (target : RegisterFile) (indices : List Nat) :
    (account.response returns waits completions).conclude target indices =
      conclude returns account.accepted target indices := by
  unfold Response.conclude conclude source
  rewrite [Account.outcome_response, Account.deliverInto_response sound fits]
  rfl

/-- Contributions that tell the same come to the same. -/
theorem conclude_eq_of_alike (alike : List.Forall₂ Alike firsts seconds) :
    conclude returns firsts = conclude returns seconds := by
  funext target indices
  unfold conclude source
  rw [verdict_eq_of_alike alike, findSome?_eq_of_alike Alike.values alike]

theorem concludes (sound : returns.Sound)
    (fits : ∀ contribution ∈ contributions, contribution.Fits returns)
    (truths : ∀ contribution ∈ contributions, ∀ result ∈ contribution.values?, result.HasTruths) :
    returns.Concludes (conclude returns contributions) := by
  unfold conclude
  cases verdict contributions with
  | error error => exact .failed (.propagated error) fun _ _ => rfl
  | fault fault => exact .failed fault fun _ _ => rfl
  | values =>
    have ofSource : (source returns contributions).HasTruths ∧
        (source returns contributions).sizes.covers returns.sizes = true := by
      unfold source
      cases found : contributions.findSome? values? with
      | none =>
        refine ⟨RegisterFile.hasTruths_ofSizes _, (BankSizes.covers_iff _ _).mpr fun bank => ?_⟩
        exact (congrArg (BankSizes.get · bank) (RegisterFile.sizes_ofSizes returns.sizes)).ge
      | some result =>
        obtain ⟨contribution, member, brings⟩ := List.exists_of_findSome?_eq_some found
        refine ⟨truths contribution member result brings, ?_⟩
        rw [Option.getD_some, ← (of_values? brings).2]
        exact fits contribution member
    obtain ⟨values, ⟨fresh, copied, raised⟩, delivers⟩ :=
      Marshalling.exists_returned sound ofSource.1 ofSource.2
    refine .returned values fresh ?_ raised fun target indices complete covered => ?_
    · dsimp only
      rw [copied]
    · obtain ⟨after, copied, takesIn⟩ := delivers target indices complete covered
      refine ⟨after, ?_, takesIn⟩
      dsimp only
      rw [copied]

end Contribution

/-! ## Contributions told by the order in which tasks finish -/

/-- What a task brings that has finished so, if the workers conduct themselves so and have been given
these registers. -/
def Finish.contribution (conduct : Worker → RegisterFile → WorkerOutcome × RegisterFile)
    (seeds : Worker → RegisterFile) : Finish → Contribution
  | .ended worker => ⟨0, (conduct worker (seeds worker)).1, (conduct worker (seeds worker)).2⟩
  | .dropped context =>
    ⟨context, .faulted (.schedule ("worker context " ++ toString context ++
      " dropped before running")), .empty⟩

namespace Settling.Course

variable {machine : Machine} {docket : Docket} {account : Account} {response : ResponseId}
  {conduct : Worker → RegisterFile → WorkerOutcome × RegisterFile}
  {seeds : Worker → RegisterFile} (course : Course machine docket account response)
  (conducts : machine.Conducts response conduct)

include course conducts

/-- The contributions to a call are those that go with the order in which its tasks have finished. -/
theorem alike (seeded : ∀ task ∈ docket.made, task.context.locals = seeds task.worker) :
    List.Forall₂ Contribution.Alike account.accepted
      ((machine.finishes response).map (Finish.contribution conduct seeds)) := by
  rw [course.finishes_eq, List.map_map, List.forall₂_map_right_iff, List.forall₂_same]
  intro contribution accepted
  obtain ⟨task, isMade, ⟨finished, ending, isEnding, rfl, isOutcome, isResult⟩ | told⟩ :=
    course.exists_task accepted
  · have conducted := conducts ending isEnding
    rw [seeded _ isMade, ← isOutcome, ← isResult] at conducted
    simp only [Function.comp_apply, finished, Finish.contribution, ← conducted]
    exact ⟨rfl, rfl⟩
  · obtain ⟨finished, isOutcome⟩ := told
    simp only [Function.comp_apply, finished, Finish.contribution]
    refine ⟨isOutcome, ?_⟩
    unfold Contribution.values?
    rw [isOutcome]

/-- Only zeros and ones stand for booleans in what workers bring that conduct themselves so. -/
theorem hasTruths (truths : ∀ worker file, (conduct worker file).2.HasTruths) :
    ∀ contribution ∈ account.accepted, ∀ result ∈ contribution.values?, result.HasTruths := by
  intro contribution accepted result brings
  obtain ⟨returned, rfl⟩ := Contribution.of_values? brings
  obtain ⟨task, _, ⟨_, ending, isEnding, _, _, isResult⟩ | ⟨_, isOutcome⟩⟩ :=
    course.exists_task accepted
  · have conducted := congrArg Prod.snd (conducts ending isEnding)
    rw [isResult, show ending.after.results = _ from conducted]
    exact truths _ _
  · rw [isOutcome] at returned
    cases returned

end Settling.Course

end WorkerMachine
