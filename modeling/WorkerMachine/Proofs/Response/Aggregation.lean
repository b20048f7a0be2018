import WorkerMachine.Proofs.Response.Account
/-!
# Values, errors and faults of several workers

What a response tells its caller after any events: the values of the first worker that returned,
unless some worker raised an error, and the first error, unless some worker broke down.
-/

namespace WorkerMachine

/-! ## Ranks -/

/-- The rank of a way to end: a fault outranks an error, and an error outranks values. -/
def WorkerOutcome.rank : WorkerOutcome → Nat
  | returned | finished => 0
  | raised _ => 1
  | faulted _ => 2

def ResponseOutcome.rank : ResponseOutcome → Nat
  | values => 0
  | error _ => 1
  | fault _ => 2

def Contribution.rank (contribution : Contribution) : Nat :=
  contribution.outcome.rank

def Contribution.highestRank (contributions : List Contribution) : Nat :=
  (contributions.map rank).foldr max 0

namespace Contribution

theorem highestRank_cons (first : Contribution) (rest : List Contribution) :
    highestRank (first :: rest) = max first.rank (highestRank rest) := rfl

theorem highestRank_perm {contributions others : List Contribution}
    (perm : contributions.Perm others) : highestRank contributions = highestRank others := by
  induction perm with
  | nil =>
      rfl
  | cons first _ inductionHypothesis =>
      rw [highestRank_cons, highestRank_cons, inductionHypothesis]
  | swap first second rest =>
      simp only [highestRank_cons]
      omega
  | trans _ _ firstStep secondStep =>
      exact firstStep.trans secondStep

/-- What contributions come to, told from the first fault and the first error among them. -/
def verdict (contributions : List Contribution) : ResponseOutcome :=
  match contributions.findSome? fault?, contributions.findSome? error? with
  | some fault, _ => .fault fault
  | none, some error => .error error
  | none, none => .values

theorem rank_le_two (contribution : Contribution) : contribution.rank ≤ 2 := by
  unfold rank
  cases contribution.outcome <;> simp [WorkerOutcome.rank]

theorem highestRank_le_two (contributions : List Contribution) :
    highestRank contributions ≤ 2 := by
  induction contributions with
  | nil =>
      exact Nat.zero_le 2
  | cons first rest inductionHypothesis =>
      rw [highestRank_cons]
      exact Nat.max_le.mpr ⟨rank_le_two first, inductionHypothesis⟩

theorem rank_verdict (contributions : List Contribution) :
    (verdict contributions).rank = highestRank contributions := by
  induction contributions with
  | nil =>
      rfl
  | cons first rest inductionHypothesis =>
      have atMostTwo := highestRank_le_two rest
      rw [highestRank_cons, ← inductionHypothesis]
      rw [← inductionHypothesis] at atMostTwo
      obtain ⟨worker, outcome, result⟩ := first
      unfold verdict at *
      cases outcome with
      | returned | finished =>
          simp [List.findSome?_cons, fault?, error?, rank, WorkerOutcome.rank]
      | raised error =>
          simp only [List.findSome?_cons, fault?, error?, rank, WorkerOutcome.rank]
          cases rest.findSome? fault? with
          | some fault =>
              rfl
          | none =>
              cases rest.findSome? error? with
              | some _ | none =>
                  rfl
      | faulted fault =>
          simp only [List.findSome?_cons, fault?, rank, WorkerOutcome.rank]
          exact (Nat.max_eq_left atMostTwo).symm

end Contribution

/-! ## Delivery -/

namespace Account

variable {returns : Layout}

theorem outcome_response (account : Account) (returns : Layout) (waits : Bool)
    (completions : Nat) :
    (account.response returns waits completions).outcome =
      Contribution.verdict account.accepted := rfl

/-- What is delivered is copied straight from the result registers of the first worker that
returned, or from fresh ones. -/
theorem deliverInto_response (sound : returns.Sound) {account : Account}
    (fits : ∀ contribution ∈ account.accepted, contribution.Fits returns) (waits : Bool)
    (completions : Nat) (target : RegisterFile) (indices : List Nat) :
    (account.response returns waits completions).deliverInto target indices =
      Marshalling.copyReturns returns
        ((account.accepted.findSome? Contribution.values?).getD (.ofSizes returns.sizes))
        returns.indices target indices := by
  unfold Response.deliverInto response
  cases found : account.accepted.findSome? Contribution.values? with
  | none =>
      rfl
  | some result =>
      obtain ⟨contribution, member, brings⟩ := List.exists_of_findSome?_eq_some found
      have roomy : result.sizes.covers returns.sizes = true := by
        unfold Contribution.values? at brings
        split at brings
        · cases brings
          exact fits contribution member
        · cases brings
      obtain ⟨file, copied, _, content⟩ := Marshalling.exists_copyReturns_of_covers sound roomy
        (RegisterFile.sizes_ofSizes returns.sizes)
      simp only [stagedFrom, copied, Option.getD_some]
      exact (Marshalling.copyReturns_congr sound roomy (fun slot member => (content slot member).symm)
        target indices).symm

/-- Everything that counts was handed in. -/
theorem mem_of_mem_accepted {events : List ResponseEvent} {contribution : Contribution}
    (member : contribution ∈ (ofEvents events).accepted) :
    .contributed contribution ∈ events := by
  induction events using List.reverseRecOn with
  | nil =>
      cases member
  | append_singleton events event inductionHypothesis =>
      rw [ofEvents_snoc] at member
      cases event with
      | expected count =>
          rw [accepted_enter_expected] at member
          exact List.mem_append_left _ (inductionHypothesis member)
      | contributed last =>
          by_cases admitted : (ofEvents events).Admits last.worker
          · rw [enter_of_admits admitted] at member
            rcases List.mem_append.mp member with among | isLast
            · exact List.mem_append_left _ (inductionHypothesis among)
            · rw [List.mem_singleton.mp isLast]
              exact List.mem_append_right _ (List.mem_singleton_self _)
          · rw [enter_of_not_admits admitted] at member
            exact List.mem_append_left _ (inductionHypothesis member)

end Account

/-! ## Whole runs -/

/-- How a response that was opened with nothing expected has fared after some events, when so many
contributions are expected by now and the contributions so far got these answers, and what it makes of
one more contribution. -/
structure Response.Aggregates (response : Response) (returns : Layout)
    (events : List ResponseEvent) (expected : Nat) (answers : List (Except Overrun Bool)) : Prop where
  /-- What is expected is the sum of all counts, as long as this is a machine word.  It is less only
  if some count panicked. -/
  addsUp : expected ≤ ResponseEvent.total events ∧
    (ResponseEvent.total events < UInt64.size → expected = ResponseEvent.total events)
  /-- Something is outstanding until as many contributions count as are expected, and never more of
  them count. -/
  outstanding : response.outstanding = expected - (Account.ofEvents events).accepted.length ∧
    (Account.ofEvents events).accepted.length ≤ expected ∧ response.outstanding < UInt64.size
  /-- Accepted is what comes while something is outstanding from a worker that is new. -/
  accepts : ∀ worker, response.accepts worker = true ↔ response.outstanding ≠ 0 ∧
    worker ∉ (Account.ofEvents events).accepted.map Contribution.worker
  /-- What is not accepted changes nothing. -/
  refuses : ∀ contribution : Contribution, response.accepts contribution.worker = false →
    response.accept contribution = (response, .ok false) ∧
      Account.ofEvents (events ++ [.contributed contribution]) = Account.ofEvents events
  /-- What is accepted counts, and completes the response exactly when nothing is outstanding any
  more. -/
  counts : ∀ contribution : Contribution, contribution.Fits returns →
    response.accepts contribution.worker = true →
      (Account.ofEvents (events ++ [.contributed contribution])).accepted =
          (Account.ofEvents events).accepted ++ [contribution] ∧
        (response.accept contribution).2 =
          .ok (decide ((response.accept contribution).1.outstanding = 0))
  /-- No contribution has broken down, and completions are counted. -/
  completions : (∀ answer ∈ answers, ∃ completed, answer = .ok completed) ∧
    response.completions = answers.countP Response.saysComplete
  /-- What is expected at once is complete at most once, with the last worker that is new. -/
  expectedAtOnce : ∀ count contributions,
    events = Account.expectedAtOnce count contributions →
      response.completions ≤ 1 ∧ ∀ contribution : Contribution, contribution.Fits returns →
        ((response.accept contribution).2 = .ok true ↔
          contribution.worker ∉ contributions.map Contribution.worker ∧
            (contributions.map Contribution.worker).dedup.length + 1 = count.toNat)
  /-- The values are those of the first worker that returned, or zeros. -/
  delivers : ∀ target indices, response.deliverInto target indices =
    Marshalling.copyReturns returns
      (((Account.ofEvents events).accepted.findSome? Contribution.values?).getD
        (.ofSizes returns.sizes)) returns.indices target indices
  /-- The outcome is the first fault, else the first error, else values. -/
  outcome : response.outcome =
    match (Account.ofEvents events).accepted.findSome? Contribution.fault?,
      (Account.ofEvents events).accepted.findSome? Contribution.error? with
    | some fault, _ => .fault fault
    | none, some error => .error error
    | none, none => .values
  /-- Which of the three it is does not depend on the order of the contributions. -/
  anyOrder : ∀ others, others.Perm (Account.ofEvents events).accepted →
    response.outcome.rank = Contribution.highestRank others

section WholeRuns

variable {returns : Layout} {waits : Bool} {events : List ResponseEvent}

/-- Every contribution gets an answer. -/
theorem Response.answers_ok (sound : returns.Sound) (waits : Bool)
    (fits : ∀ event ∈ events, event.Fits returns) :
    ∀ answer ∈ (Response.ofReturns returns waits).answers events,
      ∃ completed, answer = .ok completed := by
  induction events using List.reverseRecOn with
  | nil =>
      intro answer never
      cases never
  | append_singleton events event inductionHypothesis =>
      have earlierFits : ∀ event ∈ events, event.Fits returns := fun earlier member =>
        fits earlier (List.mem_append_left _ member)
      have lastFits := fits event (List.mem_append_right _ (List.mem_singleton_self event))
      intro answer member
      rw [Response.answers_snoc, Account.after_ofReturns sound waits earlierFits] at member
      rcases List.mem_append.mp member with among | isLast
      · exact inductionHypothesis earlierFits answer among
      · cases event with
        | expected count =>
            cases isLast
        | contributed contribution =>
            have isAnswer := List.mem_singleton.mp isLast
            by_cases admitted : (Account.ofEvents events).Admits contribution.worker
            · rw [Account.accept_response sound lastFits admitted] at isAnswer
              exact ⟨_, isAnswer⟩
            · rw [Account.accept_response_of_not_admits admitted] at isAnswer
              exact ⟨_, isAnswer⟩

/-- A response that is told once what to expect is complete only when so many contributions have
counted. -/
theorem Account.completions_expectedAtOnce (sound : returns.Sound) (waits : Bool) (count : UInt64)
    {contributions : List Contribution}
    (fits : ∀ contribution ∈ contributions, contribution.Fits returns) :
    ((Response.ofReturns returns waits).after (expectedAtOnce count contributions)).completions ≤
      if (ofEvents (expectedAtOnce count contributions)).accepted.length = count.toNat then 1
      else 0 := by
  induction contributions using List.reverseRecOn with
  | nil =>
      have noneYet : ((Response.ofReturns returns waits).expect count.toNat).completions = 0 := by
        rw [Response.expect_eq]
        rfl
      exact Nat.le_trans (Nat.le_of_eq noneYet) (Nat.zero_le _)
  | append_singleton earlier last inductionHypothesis =>
      have earlierFits : ∀ contribution ∈ earlier, contribution.Fits returns :=
        fun contribution member => fits contribution (List.mem_append_left _ member)
      have lastFits := fits last (List.mem_append_right _ (List.mem_singleton_self last))
      have eventsFit : ∀ event ∈ expectedAtOnce count earlier, event.Fits returns := by
        intro event member
        rcases List.mem_cons.mp member with rfl | handedIn
        · trivial
        · obtain ⟨contribution, inEarlier, rfl⟩ := List.mem_map.mp handedIn
          exact earlierFits contribution inEarlier
      have expected := expected_expectedAtOnce count earlier
      have atMost := inductionHypothesis earlierFits
      rw [expectedAtOnce_snoc, Response.after_snoc, ofEvents_snoc]
      rw [after_ofReturns sound waits eventsFit] at atMost ⊢
      simp only [Response.receive]
      by_cases admitted : (ofEvents (expectedAtOnce count earlier)).Admits last.worker
      · have fewer := admitted.1
        rw [expected] at fewer
        rw [if_neg (Nat.ne_of_lt fewer)] at atMost
        have nothingYet := Nat.le_zero.mp atMost
        rw [accept_response sound lastFits admitted, enter_of_admits admitted, expected]
        simp only [response] at nothingYet ⊢
        simp only [nothingYet, Nat.zero_add, takeIn, List.length_append, List.length_singleton,
          Nat.le_refl]
      · rw [accept_response_of_not_admits admitted, enter_of_not_admits admitted]
        exact atMost

/-- Whatever happens to a response that was opened with nothing expected, it keeps to the rules: what is
expected adds up, each worker counts once, the first values, the first error and the first fault are
kept, and it is complete with the last contribution outstanding. -/
theorem response_aggregates {types : List DataType} (laidOut : Layout.ofTypes types = .ok returns)
    (waits : Bool) (fits : ∀ event ∈ events, event.Fits returns) :
    ((Response.ofReturns returns waits).after events).Aggregates returns events
      ((Response.ofReturns returns waits).expectedAfter events)
      ((Response.ofReturns returns waits).answers events) := by
  have sound := Layout.sound_of_ofTypes laidOut
  have expected := Account.expected_ofEvents sound waits fits
  have bounded := (Account.ofEvents events).bounded
  have reached := Account.after_ofReturns sound waits fits
  constructor
  case addsUp =>
    refine ⟨Response.expectedAfter_le_total _ events, fun isWord => ?_⟩
    apply Response.expectedAfter_eq_total
    rwa [Response.ofReturns, Nat.zero_add]
  case outstanding =>
    have isWord : (Response.ofReturns returns waits).outstanding < UInt64.size :=
      Nat.two_pow_pos 64
    rw [← expected]
    refine ⟨?_, bounded, Response.outstanding_after_lt isWord events⟩
    rw [reached]
    rfl
  case accepts =>
    intro worker
    rw [reached, Account.accepts_response, decide_eq_true_iff, Account.Admits]
    exact and_congr_left fun _ => (Nat.sub_ne_zero_iff_lt).symm
  case refuses =>
    intro contribution refused
    refine ⟨Response.contribute_eq_of_not_accepts _ refused _ _, ?_⟩
    rw [reached, Account.accepts_response] at refused
    rw [Account.ofEvents_snoc]
    exact Account.enter_of_not_admits (of_decide_eq_false refused)
  case counts =>
    intro contribution contributionFits accepted
    rw [reached, Account.accepts_response] at accepted
    have admitted := of_decide_eq_true accepted
    rw [Account.ofEvents_snoc, Account.enter_of_admits admitted, reached,
      Account.accept_response sound contributionFits admitted]
    have outstanding : (Account.ofEvents events).accepted.length + 1 =
          (Account.ofEvents events).expected ↔
        (Account.ofEvents events).expected -
          ((Account.ofEvents events).accepted ++ [contribution]).length = 0 := by
      have fewer := admitted.1
      rw [List.length_append, List.length_singleton]
      omega
    exact ⟨rfl, congrArg Except.ok (decide_eq_decide.mpr outstanding)⟩
  case completions =>
    refine ⟨Response.answers_ok sound waits fits, ?_⟩
    rw [reached]
    rfl
  case expectedAtOnce =>
    rintro count contributions rfl
    have contributionsFit : ∀ contribution ∈ contributions, contribution.Fits returns :=
      fun contribution member => fits (.contributed contribution)
        (List.mem_cons_of_mem _ (List.mem_map_of_mem member))
    constructor
    · have atMost := Account.completions_expectedAtOnce sound waits count contributionsFit
      split at atMost <;> omega
    · intro contribution contributionFits
      rw [← Account.completes_expectedAtOnce_iff, reached]
      by_cases admitted :
          (Account.ofEvents (Account.expectedAtOnce count contributions)).Admits contribution.worker
      · rw [Account.accept_response sound contributionFits admitted,
          Account.expected_expectedAtOnce]
        simp [admitted]
      · rw [Account.accept_response_of_not_admits admitted]
        simp [admitted]
  case delivers =>
    intro target indices
    rw [reached]
    exact Account.deliverInto_response sound
      (fun contribution member => fits _ (Account.mem_of_mem_accepted member)) waits _ target indices
  case outcome =>
    rw [reached]
    rfl
  case anyOrder =>
    intro others perm
    rw [reached, Account.outcome_response, Contribution.rank_verdict,
      Contribution.highestRank_perm perm]

/-- The second contribution of a worker and the one that comes too late change nothing, and of the
two that count the error outranks the values.  A count that goes beyond a machine word panics. -/
theorem repeated_and_late_aggregate :
    let returns : Layout := ⟨[.int], [⟨.int, 0⟩], { longs := 1 }⟩
    let file (number : Int64) : RegisterFile := { longs := #[number] }
    let events : List ResponseEvent :=
      [.expected 2, .contributed ⟨1, .returned, file 9⟩,
        .contributed ⟨1, .faulted (.schedule "lost"), file 0⟩,
        .expected 18446744073709551615, .contributed ⟨2, .raised (.ofMessage "boom"), file 5⟩,
        .contributed ⟨3, .returned, file 7⟩]
    let response := (Response.ofReturns returns true).after events
    Layout.ofTypes [.int] = .ok returns ∧ (∀ event ∈ events, event.Fits returns) ∧
      response.Aggregates returns events 2 ((Response.ofReturns returns true).answers events) ∧
      response.outcome = .error (.ofMessage "boom") := by
  intro returns file events response
  have laidOut : Layout.ofTypes [.int] = .ok returns := rfl
  have fits : ∀ event ∈ events, event.Fits returns := by
    intro event member
    simp only [events, List.mem_cons, List.not_mem_nil, or_false] at member
    rcases member with rfl | rfl | rfl | rfl | rfl | rfl
    case inl | inr.inr.inr.inl => trivial
    all_goals exact (BankSizes.covers_iff _ _).mpr fun bank => by cases bank <;> decide
  have expected : (Response.ofReturns returns true).expectedAfter events = 2 := by decide +kernel
  have isOutcome : response.outcome = .error (.ofMessage "boom") := by decide +kernel
  exact ⟨laidOut, fits, expected ▸ response_aggregates laidOut true fits, isOutcome⟩

end WholeRuns

end WorkerMachine
