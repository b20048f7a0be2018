import Mathlib.Data.List.Dedup
import Mathlib.Data.List.Induction
import Mathlib.Data.List.Perm.Subperm
import WorkerMachine.Proofs.Registers.Copying
/-!
# What a response makes of its contributions

A response is told what to expect, and workers hand in contributions, in any order, repeatedly or too
late.  An account of these events keeps the contributions that count: those that come while
something is outstanding, each worker once.  The response always is the one that the account
describes, so its values, its error and its fault are the first ones among the contributions that
count, and it is complete exactly when the last one outstanding arrives.

What is expected adds up, count by count.  A count for which the counter has no room panics and adds
nothing; there is no such count as long as the sum of all of them is a machine word.
-/

namespace WorkerMachine

/-- What a worker hands in: its name, how it ended, and its result registers. -/
structure Contribution where
  worker : ContextId
  outcome : WorkerOutcome
  result : RegisterFile

inductive ResponseEvent where
  /-- So many further contributions are expected. -/
  | expected (count : UInt64)
  /-- A worker hands in its contribution. -/
  | contributed (contribution : Contribution)

namespace Contribution

def values? (contribution : Contribution) : Option RegisterFile :=
  match contribution.outcome with
  | .returned => some contribution.result
  | _ => none

def error? (contribution : Contribution) : Option ErrorValue :=
  match contribution.outcome with
  | .raised error => some error
  | _ => none

def fault? (contribution : Contribution) : Option Fault :=
  match contribution.outcome with
  | .faulted fault => some fault
  | _ => none

def Fits (contribution : Contribution) (returns : Layout) : Prop :=
  contribution.result.sizes.covers returns.sizes = true

end Contribution

namespace ResponseEvent

def count : ResponseEvent → Nat
  | expected count => count.toNat
  | contributed _ => 0

def total (events : List ResponseEvent) : Nat :=
  events.foldl (fun sum event => sum + event.count) 0

theorem total_snoc (events : List ResponseEvent) (event : ResponseEvent) :
    total (events ++ [event]) = total events + event.count :=
  List.foldl_append

/-- The result registers that come with an event have room for all that is returned. -/
def Fits (returns : Layout) : ResponseEvent → Prop
  | expected _ => True
  | contributed contribution => contribution.Fits returns

end ResponseEvent

namespace Response

def accept (response : Response) (contribution : Contribution) : Response × Except Overrun Bool :=
  response.contribute contribution.worker contribution.outcome contribution.result

/-- The response after one event, and the answer if the event was a contribution. -/
def receive (response : Response) :
    ResponseEvent → Response × Option (Except Overrun Bool)
  | .expected count => (response.expect count.toNat, none)
  | .contributed contribution =>
    ((response.accept contribution).1, some (response.accept contribution).2)

def after (response : Response) (events : List ResponseEvent) : Response :=
  events.foldl (fun reached event => (reached.receive event).1) response

/-- The answers that the contributions among several events get. -/
def answers : Response → List ResponseEvent → List (Except Overrun Bool)
  | _, [] => []
  | response, event :: rest =>
    (response.receive event).2.toList ++ (response.receive event).1.answers rest

/-- How many contributions an event makes expected: its count, unless this panics. -/
def announced (response : Response) : ResponseEvent → Nat
  | .expected count => if (response.expect? count.toNat).isSome then count.toNat else 0
  | .contributed _ => 0

/-- How many contributions several events make expected. -/
def expectedAfter : Response → List ResponseEvent → Nat
  | _, [] => 0
  | response, event :: rest =>
    response.announced event + (response.receive event).1.expectedAfter rest

def saysComplete : Except Overrun Bool → Bool
  | .ok completed => completed
  | .error _ => false

theorem after_snoc (response : Response) (events : List ResponseEvent) (event : ResponseEvent) :
    response.after (events ++ [event]) = ((response.after events).receive event).1 := by
  simp only [after, List.foldl_append, List.foldl_cons, List.foldl_nil]

theorem answers_snoc (response : Response) (events : List ResponseEvent) (event : ResponseEvent) :
    response.answers (events ++ [event]) =
      response.answers events ++ ((response.after events).receive event).2.toList := by
  induction events generalizing response with
  | nil =>
      simp [answers, after]
  | cons first rest inductionHypothesis =>
      simp only [List.cons_append, answers, inductionHypothesis, List.append_assoc]
      rfl

theorem expectedAfter_snoc (response : Response) (events : List ResponseEvent)
    (event : ResponseEvent) :
    response.expectedAfter (events ++ [event]) =
      response.expectedAfter events + (response.after events).announced event := by
  induction events generalizing response with
  | nil =>
      simp [expectedAfter, after]
  | cons first rest inductionHypothesis =>
      simp only [List.cons_append, expectedAfter, inductionHypothesis, Nat.add_assoc]
      rfl

/-! ### What is outstanding -/

variable {response : Response}

theorem outstanding_expect (response : Response) (count : UInt64) :
    (response.expect count.toNat).outstanding =
      response.outstanding + response.announced (.expected count) := by
  by_cases hasRoom : response.outstanding + count.toNat < UInt64.size <;>
    simp [expect, announced, expect?, hasRoom]

/-- Whether or not it panics, a count changes nothing but what is outstanding. -/
theorem expect_eq (response : Response) (count : Nat) :
    response.expect count = { response with outstanding := (response.expect count).outstanding } := by
  simp only [expect, expect?]
  split <;> rfl

theorem announced_le_count (response : Response) (event : ResponseEvent) :
    response.announced event ≤ event.count := by
  cases event with
  | expected count =>
      simp only [announced, ResponseEvent.count]
      split
      · exact Nat.le_refl _
      · exact Nat.zero_le _
  | contributed contribution =>
      exact Nat.le_refl 0

theorem outstanding_record (response : Response) (outcome : WorkerOutcome)
    (result : RegisterFile) : (response.record outcome result).1.outstanding = response.outstanding := by
  cases outcome with
  | returned =>
      rw [record, stage]
      split
      · rfl
      · dsimp only
        split <;> rfl
  | finished | raised _ | faulted _ =>
      rfl

theorem outstanding_accept_le (response : Response) (contribution : Contribution) :
    (response.accept contribution).1.outstanding ≤ response.outstanding := by
  have unchanged := outstanding_record (response.enlist contribution.worker) contribution.outcome
    contribution.result
  replace unchanged : ((response.enlist contribution.worker).record contribution.outcome
      contribution.result).1.outstanding = response.outstanding := unchanged
  unfold accept contribute
  split
  · generalize (response.enlist contribution.worker).record contribution.outcome
      contribution.result = told at unchanged
    obtain ⟨recorded, _ | _⟩ := told
    · exact Nat.le_of_eq unchanged
    · rw [← unchanged]
      dsimp only [settle]
      split
      · exact Nat.zero_le _
      · exact Nat.sub_le _ 1
  · exact Nat.le_refl _

theorem outstanding_after_le (response : Response) (events : List ResponseEvent) :
    (response.after events).outstanding ≤ response.outstanding + response.expectedAfter events := by
  induction events using List.reverseRecOn with
  | nil =>
      exact Nat.le_refl _
  | append_singleton events event inductionHypothesis =>
      rw [after_snoc, expectedAfter_snoc, ← Nat.add_assoc]
      cases event with
      | expected count =>
          simp only [receive, outstanding_expect]
          exact Nat.add_le_add_right inductionHypothesis _
      | contributed contribution =>
          exact Nat.le_trans (outstanding_accept_le _ contribution) inductionHypothesis

theorem outstanding_after_lt (isWord : response.outstanding < UInt64.size)
    (events : List ResponseEvent) : (response.after events).outstanding < UInt64.size := by
  induction events using List.reverseRecOn with
  | nil =>
      exact isWord
  | append_singleton events event inductionHypothesis =>
      rw [after_snoc]
      cases event with
      | expected count =>
          simp only [receive, expect, expect?]
          split
          · assumption
          · exact inductionHypothesis
      | contributed contribution =>
          exact Nat.lt_of_le_of_lt (outstanding_accept_le _ contribution) inductionHypothesis

theorem expectedAfter_le_total (response : Response) (events : List ResponseEvent) :
    response.expectedAfter events ≤ ResponseEvent.total events := by
  induction events using List.reverseRecOn with
  | nil =>
      exact Nat.le_refl 0
  | append_singleton events event inductionHypothesis =>
      rw [expectedAfter_snoc, ResponseEvent.total_snoc]
      exact Nat.add_le_add inductionHypothesis (announced_le_count _ event)

/-- No count panics as long as the sum of all counts is a machine word. -/
theorem expectedAfter_eq_total (response : Response) {events : List ResponseEvent}
    (isWord : response.outstanding + ResponseEvent.total events < UInt64.size) :
    response.expectedAfter events = ResponseEvent.total events := by
  induction events using List.reverseRecOn with
  | nil =>
      rfl
  | append_singleton events event inductionHypothesis =>
      rw [ResponseEvent.total_snoc] at isWord ⊢
      have soFar := inductionHypothesis (by omega)
      rw [expectedAfter_snoc, soFar]
      cases event with
      | expected count =>
          have atMost := response.outstanding_after_le events
          have hasRoom : (response.after events).outstanding + count.toNat < UInt64.size := by
            rw [soFar] at atMost
            simp only [ResponseEvent.count] at isWord
            omega
          simp [announced, expect?, hasRoom, ResponseEvent.count]
      | contributed contribution =>
          rfl

end Response

/-! ## Accounts -/

/-- What the events so far amount to: how many contributions were expected, and which ones counted,
in the order in which they came. -/
structure Account where
  expected : Nat
  accepted : List Contribution
  bounded : accepted.length ≤ expected
  distinct : (accepted.map Contribution.worker).Nodup

namespace Account

/-- The account before the first event. -/
def opening : Account := ⟨0, [], Nat.le_refl 0, List.nodup_nil⟩

/-- A contribution of a worker counts: something is outstanding and the worker is new. -/
def Admits (account : Account) (worker : ContextId) : Prop :=
  account.accepted.length < account.expected ∧ worker ∉ account.accepted.map Contribution.worker

instance (account : Account) (worker : ContextId) : Decidable (account.Admits worker) :=
  inferInstanceAs (Decidable (_ ∧ _))

/-- What is outstanding and so many further contributions are a machine word together. -/
def HasRoom (account : Account) (count : UInt64) : Prop :=
  account.expected - account.accepted.length + count.toNat < UInt64.size

instance (account : Account) (count : UInt64) : Decidable (account.HasRoom count) :=
  inferInstanceAs (Decidable (_ < _))

def expect (account : Account) (count : Nat) : Account where
  expected := account.expected + count
  accepted := account.accepted
  bounded := Nat.le_add_right_of_le account.bounded
  distinct := account.distinct

def takeIn (account : Account) (contribution : Contribution)
    (admitted : account.Admits contribution.worker) : Account where
  expected := account.expected
  accepted := account.accepted ++ [contribution]
  bounded := by
    rw [List.length_append]
    exact admitted.1
  distinct := by
    rw [List.map_append]
    exact List.nodup_append.mpr ⟨account.distinct, List.nodup_singleton _, fun worker member other
      single same => admitted.2 (List.mem_singleton.mp single ▸ same ▸ member)⟩

/-- The account after one event.  A contribution that does not count leaves it as it is, and so does a
count for which there is no room. -/
def enter (account : Account) : ResponseEvent → Account
  | .expected count => if account.HasRoom count then account.expect count.toNat else account
  | .contributed contribution =>
    if admitted : account.Admits contribution.worker then account.takeIn contribution admitted
    else account

def ofEvents (events : List ResponseEvent) : Account :=
  events.foldl enter opening

variable {account : Account} {contribution : Contribution}

theorem ofEvents_snoc (events : List ResponseEvent) (event : ResponseEvent) :
    ofEvents (events ++ [event]) = (ofEvents events).enter event := by
  simp only [ofEvents, List.foldl_append, List.foldl_cons, List.foldl_nil]

theorem enter_of_admits (admitted : account.Admits contribution.worker) :
    account.enter (.contributed contribution) = account.takeIn contribution admitted :=
  dif_pos admitted

theorem enter_of_not_admits (refused : ¬account.Admits contribution.worker) :
    account.enter (.contributed contribution) = account :=
  dif_neg refused

theorem accepted_enter_expected (account : Account) (count : UInt64) :
    (account.enter (.expected count)).accepted = account.accepted := by
  rw [enter]
  split <;> rfl

theorem expected_enter_contributed (account : Account) (contribution : Contribution) :
    (account.enter (.contributed contribution)).expected = account.expected := by
  by_cases admitted : account.Admits contribution.worker
  · rw [enter_of_admits admitted]
    rfl
  · rw [enter_of_not_admits admitted]

/-- What is staged once these are the first values that a worker has returned. -/
def stagedFrom (returns : Layout) : Option RegisterFile → RegisterFile
  | some result =>
    (Marshalling.copyReturns returns result returns.indices (.ofSizes returns.sizes)
      returns.indices).1
  | none => .ofSizes returns.sizes

def response (account : Account) (returns : Layout) (waits : Bool) (completions : Nat) : Response
    where
  returns := returns
  waits := waits
  outstanding := account.expected - account.accepted.length
  contributors := (account.accepted.map Contribution.worker).reverse
  staged := stagedFrom returns (account.accepted.findSome? Contribution.values?)
  hasValues := (account.accepted.findSome? Contribution.values?).isSome
  error := account.accepted.findSome? Contribution.error?
  fault := account.accepted.findSome? Contribution.fault?
  completions := completions

/-! ## Responses keep the account -/

section Keeping

variable {returns : Layout} {waits : Bool} {completions : Nat}

theorem accepts_response (account : Account) (returns : Layout) (waits : Bool)
    (completions : Nat) (worker : ContextId) :
    (account.response returns waits completions).accepts worker =
      decide (account.Admits worker) := by
  have outstanding : account.expected - account.accepted.length ≠ 0 ↔
      account.accepted.length < account.expected := by omega
  rw [Bool.eq_iff_iff]
  simp [Response.accepts, response, Admits, outstanding]

theorem expect?_response (account : Account) (count : UInt64) :
    (account.response returns waits completions).expect? count.toNat =
      if account.HasRoom count then
        some { account.response returns waits completions with
          outstanding := account.expected - account.accepted.length + count.toNat }
      else none := rfl

theorem expect_response (account : Account) (count : UInt64) :
    (account.response returns waits completions).expect count.toNat =
      (account.enter (.expected count)).response returns waits completions := by
  by_cases hasRoom : account.HasRoom count
  · have bounded := account.bounded
    have outstanding : account.expected - account.accepted.length + count.toNat =
        account.expected + count.toNat - account.accepted.length := by omega
    simp only [expect?_response, Response.expect, enter, if_pos hasRoom, Option.getD_some]
    simp only [response, expect, outstanding]
  · simp only [expect?_response, Response.expect, enter, if_neg hasRoom, Option.getD_none]

theorem announced_response (account : Account) (count : UInt64) :
    (account.response returns waits completions).announced (.expected count) =
      if account.HasRoom count then count.toNat else 0 := by
  rw [Response.announced, expect?_response]
  by_cases hasRoom : account.HasRoom count <;> simp [hasRoom]

/-- The values of a worker are staged unless values have been staged before. -/
theorem stage_response (sound : returns.Sound) (account : Account) (worker : ContextId)
    {result : RegisterFile} (roomy : result.sizes.covers returns.sizes = true) :
    ((account.response returns waits completions).enlist worker).stage result =
      ({ (account.response returns waits completions).enlist worker with
          staged := stagedFrom returns
            ((account.accepted.findSome? Contribution.values?).or (some result))
          hasValues := true }, .ok ()) := by
  unfold Response.stage Response.enlist response
  rcases Option.eq_none_or_eq_some (account.accepted.findSome? Contribution.values?) with
    noneStaged | ⟨staged, isStaged⟩
  · obtain ⟨file, copied, _, _⟩ := Marshalling.exists_copyReturns_of_covers sound roomy
      (RegisterFile.sizes_ofSizes returns.sizes)
    simp only [noneStaged, stagedFrom, Option.isSome_none, Bool.false_eq_true, if_false,
      Option.none_or, copied]
  · simp only [isStaged, Option.isSome_some, if_true, Option.some_or]

/-- Until the contribution is counted, the response has taken over what it brings. -/
theorem record_response (sound : returns.Sound) (fits : contribution.Fits returns)
    (admitted : account.Admits contribution.worker) :
    ((account.response returns waits completions).enlist contribution.worker).record
        contribution.outcome contribution.result =
      ({ (account.takeIn contribution admitted).response returns waits completions with
          outstanding := account.expected - account.accepted.length }, .ok ()) := by
  obtain ⟨worker, outcome, result⟩ := contribution
  cases outcome with
  | returned =>
      rw [Response.record, stage_response sound account worker fits]
      simp [Response.enlist, response, takeIn, List.findSome?_append, Contribution.values?,
        Contribution.error?, Contribution.fault?]
  | finished | raised _ | faulted _ =>
      simp [Response.record, Response.enlist, response, takeIn, List.findSome?_append,
        Contribution.values?, Contribution.error?, Contribution.fault?]

/-- A contribution that counts is taken in, and completes the response if it was the last one
outstanding. -/
theorem accept_response (sound : returns.Sound) (fits : contribution.Fits returns)
    (admitted : account.Admits contribution.worker) :
    (account.response returns waits completions).accept contribution =
      ((account.takeIn contribution admitted).response returns waits
          (completions + if account.accepted.length + 1 = account.expected then 1 else 0),
        .ok (decide (account.accepted.length + 1 = account.expected))) := by
  have accepted : (account.response returns waits completions).accepts contribution.worker =
      true := by
    rw [accepts_response]
    exact decide_eq_true admitted
  unfold Response.accept Response.contribute
  rw [if_pos accepted, record_response sound fits admitted]
  have fewer := admitted.1
  by_cases isLast : account.accepted.length + 1 = account.expected
  · have noneLeft : account.expected - account.accepted.length - 1 = 0 := by omega
    simp [Response.settle, response, takeIn, isLast, noneLeft]
  · have someLeft : account.expected - account.accepted.length - 1 ≠ 0 := by omega
    have some : account.expected - (account.accepted.length + 1) =
        account.expected - account.accepted.length - 1 := by omega
    simp [Response.settle, response, takeIn, isLast, someLeft, some]

/-- A contribution that does not count changes nothing. -/
theorem accept_response_of_not_admits (refused : ¬account.Admits contribution.worker)
    (returns : Layout) (waits : Bool) (completions : Nat) :
    (account.response returns waits completions).accept contribution =
      (account.response returns waits completions, .ok false) := by
  apply Response.contribute_eq_of_not_accepts
  rw [accepts_response]
  exact decide_eq_false refused

/-- A response that was opened with nothing expected keeps the account of whatever happens to it,
and counts the answers that say it is complete. -/
theorem after_ofReturns (sound : returns.Sound) (waits : Bool) {events : List ResponseEvent}
    (fits : ∀ event ∈ events, event.Fits returns) :
    (Response.ofReturns returns waits).after events =
      (ofEvents events).response returns waits
        (((Response.ofReturns returns waits).answers events).countP Response.saysComplete) := by
  induction events using List.reverseRecOn with
  | nil =>
      rfl
  | append_singleton events event inductionHypothesis =>
      have reached := inductionHypothesis fun earlier member =>
        fits earlier (List.mem_append_left _ member)
      have lastFits := fits event (List.mem_append_right _ (List.mem_singleton_self event))
      rw [Response.after_snoc, Response.answers_snoc, List.countP_append, ofEvents_snoc, reached]
      cases event with
      | expected count =>
          exact expect_response (ofEvents events) count
      | contributed contribution =>
          simp only [Response.receive]
          by_cases admitted : (ofEvents events).Admits contribution.worker
          · rw [accept_response sound lastFits admitted, enter_of_admits admitted]
            by_cases isLast : (ofEvents events).accepted.length + 1 = (ofEvents events).expected
            · simp [isLast, Response.saysComplete]
            · simp [isLast, Response.saysComplete]
          · rw [accept_response_of_not_admits admitted, enter_of_not_admits admitted]
            simp [Response.saysComplete]

theorem expected_ofEvents (sound : returns.Sound) (waits : Bool) {events : List ResponseEvent}
    (fits : ∀ event ∈ events, event.Fits returns) :
    (ofEvents events).expected = (Response.ofReturns returns waits).expectedAfter events := by
  induction events using List.reverseRecOn with
  | nil =>
      rfl
  | append_singleton events event inductionHypothesis =>
      have earlierFits : ∀ earlier ∈ events, earlier.Fits returns := fun earlier member =>
        fits earlier (List.mem_append_left _ member)
      rw [ofEvents_snoc, Response.expectedAfter_snoc, ← inductionHypothesis earlierFits]
      cases event with
      | expected count =>
          rw [after_ofReturns sound waits earlierFits, announced_response, enter]
          split
          · rfl
          · rfl
      | contributed contribution =>
          exact expected_enter_contributed _ contribution

end Keeping

/-! ## One count that is expected from the beginning -/

section ExpectedAtOnce

variable {count : UInt64} {contributions : List Contribution}

/-- What happens to a response that is told once what to expect. -/
def expectedAtOnce (count : UInt64) (contributions : List Contribution) : List ResponseEvent :=
  .expected count :: contributions.map .contributed

theorem expectedAtOnce_snoc (count : UInt64) (contributions : List Contribution)
    (contribution : Contribution) :
    expectedAtOnce count (contributions ++ [contribution]) =
      expectedAtOnce count contributions ++ [.contributed contribution] := by
  simp [expectedAtOnce]

theorem ofEvents_expectedAtOnce_nil (count : UInt64) :
    ofEvents (expectedAtOnce count []) = opening.expect count.toNat := by
  have hasRoom : opening.HasRoom count := by
    simpa [HasRoom, opening] using count.toNat_lt_size
  exact if_pos hasRoom

theorem expected_expectedAtOnce (count : UInt64) (contributions : List Contribution) :
    (ofEvents (expectedAtOnce count contributions)).expected = count.toNat := by
  induction contributions using List.reverseRecOn with
  | nil =>
      rw [ofEvents_expectedAtOnce_nil]
      exact Nat.zero_add _
  | append_singleton earlier last inductionHypothesis =>
      rw [expectedAtOnce_snoc, ofEvents_snoc, expected_enter_contributed, inductionHypothesis]

/-- Only contributions that were handed in count, and as long as something is outstanding every
worker that handed one in has been counted. -/
theorem accepted_expectedAtOnce (count : UInt64) (contributions : List Contribution) :
    (∀ contribution ∈ (ofEvents (expectedAtOnce count contributions)).accepted,
        contribution ∈ contributions) ∧
      ((ofEvents (expectedAtOnce count contributions)).accepted.length < count.toNat →
        contributions.map Contribution.worker ⊆
          (ofEvents (expectedAtOnce count contributions)).accepted.map Contribution.worker) := by
  induction contributions using List.reverseRecOn with
  | nil =>
      rw [ofEvents_expectedAtOnce_nil]
      refine ⟨fun contribution never => ?_, fun _ => List.nil_subset _⟩
      cases never
  | append_singleton earlier last inductionHypothesis =>
      obtain ⟨handedIn, counted⟩ := inductionHypothesis
      have expected := expected_expectedAtOnce count earlier
      rw [expectedAtOnce_snoc, ofEvents_snoc]
      by_cases admitted : (ofEvents (expectedAtOnce count earlier)).Admits last.worker
      · have fewer := admitted.1
        rw [expected] at fewer
        rw [enter_of_admits admitted]
        constructor
        · intro contribution member
          rcases List.mem_append.mp member with among | isLast
          · exact List.mem_append_left _ (handedIn contribution among)
          · exact List.mem_append_right _ isLast
        · intro _
          simp only [takeIn, List.map_append]
          exact List.append_subset.mpr ⟨List.subset_append_of_subset_left _ (counted fewer),
            List.subset_append_right _ _⟩
      · rw [enter_of_not_admits admitted]
        refine ⟨fun contribution member => List.mem_append_left _ (handedIn contribution member),
          fun fewer => ?_⟩
        have lastCounted : last.worker ∈
            (ofEvents (expectedAtOnce count earlier)).accepted.map Contribution.worker := by
          by_contra isNew
          exact admitted ⟨Nat.lt_of_lt_of_eq fewer expected.symm, isNew⟩
        rw [List.map_append]
        refine List.append_subset.mpr ⟨counted fewer, fun worker member => ?_⟩
        rw [List.mem_singleton.mp member]
        exact lastCounted

/-- As many contributions count as there are different workers, up to the number expected. -/
theorem length_accepted_expectedAtOnce (count : UInt64) (contributions : List Contribution) :
    (ofEvents (expectedAtOnce count contributions)).accepted.length =
      min count.toNat (contributions.map Contribution.worker).dedup.length := by
  obtain ⟨handedIn, counted⟩ := accepted_expectedAtOnce count contributions
  have bounded := (ofEvents (expectedAtOnce count contributions)).bounded
  rw [expected_expectedAtOnce] at bounded
  have atMost : (ofEvents (expectedAtOnce count contributions)).accepted.length ≤
      (contributions.map Contribution.worker).dedup.length := by
    have among := (ofEvents (expectedAtOnce count contributions)).distinct.subperm
      fun worker member => by
        obtain ⟨contribution, inAccepted, isWorker⟩ := List.mem_map.mp member
        rw [← isWorker]
        exact List.mem_dedup.mpr (List.mem_map_of_mem (handedIn contribution inAccepted))
    simpa using among.length_le
  by_cases fewer : (ofEvents (expectedAtOnce count contributions)).accepted.length < count.toNat
  · have atLeast := ((List.nodup_dedup (contributions.map Contribution.worker)).subperm
      fun worker member => counted fewer (List.mem_dedup.mp member)).length_le
    rw [List.length_map] at atLeast
    omega
  · omega

/-- The worker that completes such a response is a new one, and with it as many different workers
have handed in a contribution as were expected. -/
theorem completes_expectedAtOnce_iff (contribution : Contribution) :
    (ofEvents (expectedAtOnce count contributions)).Admits contribution.worker ∧
        (ofEvents (expectedAtOnce count contributions)).accepted.length + 1 = count.toNat ↔
      contribution.worker ∉ contributions.map Contribution.worker ∧
        (contributions.map Contribution.worker).dedup.length + 1 = count.toNat := by
  obtain ⟨handedIn, counted⟩ := accepted_expectedAtOnce count contributions
  have length := length_accepted_expectedAtOnce count contributions
  have expected := expected_expectedAtOnce count contributions
  unfold Admits
  rw [expected]
  constructor
  · rintro ⟨⟨fewer, isNew⟩, isLast⟩
    exact ⟨fun member => isNew (counted fewer member), by omega⟩
  · rintro ⟨isNew, isLast⟩
    refine ⟨⟨by omega, fun member => isNew ?_⟩, by omega⟩
    obtain ⟨earlier, inAccepted, isWorker⟩ := List.mem_map.mp member
    rw [← isWorker]
    exact List.mem_map_of_mem (handedIn earlier inAccepted)

end ExpectedAtOnce

end Account

end WorkerMachine
