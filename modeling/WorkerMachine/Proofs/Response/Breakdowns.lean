import WorkerMachine.Proofs.Registers.Boxing
import WorkerMachine.Proofs.Response.Account
/-!
# Contributions that break down

Staging the values of a worker breaks down when its result registers are too small.  By then the worker
has been recorded, and its contribution has not been counted: it stays outstanding, and the worker can
never make it again.  Every other contribution is counted completely or changes nothing, so the workers
recorded and the contributions outstanding are as many as expected, and one more for each breakdown.
Expected is the sum of all counts, unless this is no machine word and some count panicked.
-/

namespace WorkerMachine

namespace Marshalling

variable {source target : RegisterFile}

/-- Copies go on with the file that the copies before them have left, unless these break off. -/
theorem copyAll_append (source : RegisterFile) (first second : List (Bank × Nat × Nat))
    (target : RegisterFile) :
    copyAll source (first ++ second) target =
      match copyAll source first target with
      | (after, .ok ()) => copyAll source second after
      | (after, .error overrun) => (after, .error overrun) := by
  induction first generalizing target with
  | nil => rfl
  | cons entry first inductionHypothesis =>
      rw [List.cons_append, copyAll, copyAll]
      split
      · exact inductionHypothesis _
      · rfl

/-- Copies between the same slots of two files break off at the first slot that the source does not
have; those before it have been copied. -/
theorem exists_copyAll_slots_broken {slots others : List Slot} {slot : Slot}
    (readable : source.Covers slots) (writable : target.Covers slots)
    (missing : source.sizes.get slot.bank ≤ slot.index) :
    ∃ after, copyAll source ((slots ++ slot :: others).map fun slot =>
        (slot.bank, slot.index, slot.index)) target = (after, .error (source.overrunAt slot)) ∧
      after.sizes = target.sizes ∧
      ∀ asked, after.cell? asked =
        if asked ∈ slots then source.cell? asked else target.cell? asked := by
  obtain ⟨after, copied, sized, contents⟩ := copyAll_slots source slots target readable writable
  have absent := RegisterFile.cell?_of_not_lt (Nat.not_lt.mpr missing)
  have broken : after.copySlot slot.index source slot = .error (source.overrunAt slot) := by
    unfold RegisterFile.copySlot RegisterFile.read
    rw [absent]
  refine ⟨after, ?_, sized, contents⟩
  rw [List.map_append, List.map_cons, copyAll_append, copied]
  dsimp only
  rw [copyAll, broken]

end Marshalling

/-- Room for all slots of a signature is room for banks of its sizes. -/
theorem Layout.covers_slots_iff {types : List DataType} {layout : Layout}
    (laidOut : ofTypes types = .ok layout) (file : RegisterFile) :
    file.Covers layout.slots ↔ file.sizes.covers layout.sizes = true := by
  rw [BankSizes.covers_iff]
  constructor
  · intro covers bank
    by_contra fewer
    have isSlot : (⟨bank, file.sizes.get bank⟩ : Slot) ∈ layout.slots :=
      (mem_slots_iff laidOut _).mpr (Nat.lt_of_not_le fewer)
    exact Nat.lt_irrefl _ (covers _ isSlot)
  · intro covers slot member
    exact Nat.lt_of_lt_of_le ((mem_slots_iff laidOut slot).mp member) (covers slot.bank)

namespace Response

/-! ## What one contribution comes to -/

/-- A contribution would break down: values are to be staged, and the result registers are smaller than
what is returned. -/
def BreaksDown (response : Response) (contribution : Contribution) : Prop :=
  contribution.outcome = .returned ∧ response.hasValues = false ∧
    ¬contribution.Fits response.returns

structure Counts (before : Response) (contribution : Contribution) (after : Response)
    (completed : Bool) : Prop where
  returns : after.returns = before.returns
  waits : after.waits = before.waits
  contributors : after.contributors = contribution.worker :: before.contributors
  outstanding : before.outstanding = after.outstanding + 1
  completes : completed = decide (after.outstanding = 0)
  completions : after.completions = before.completions + completed.toNat
  error : after.error = before.error.or contribution.error?
  fault : after.fault = before.fault.or contribution.fault?
  values : after.hasValues = (before.hasValues || contribution.values?.isSome)
  /-- The first values are staged, and nothing else is. -/
  staged : if contribution.outcome = .returned ∧ before.hasValues = false then
      Marshalling.copyReturns before.returns contribution.result before.returns.indices before.staged
        before.returns.indices = (after.staged, .ok ())
    else after.staged = before.staged

/-- A contribution has broken down half-way: the worker is recorded and part of its values is staged,
and nothing else has changed. -/
structure Strands (before : Response) (contribution : Contribution) (after : Response)
    (overrun : Overrun) : Prop where
  recorded : after = { before with
    contributors := contribution.worker :: before.contributors, staged := after.staged }
  sized : after.staged.sizes = before.staged.sizes
  /-- Staged are the values before the first slot that the result registers do not have. -/
  partly : ∃ slots slot others, before.returns.slots = slots ++ slot :: others ∧
    contribution.result.Covers slots ∧
    contribution.result.sizes.get slot.bank ≤ slot.index ∧
    overrun = contribution.result.overrunAt slot ∧
    ∀ asked, after.staged.cell? asked =
      if asked ∈ slots then contribution.result.cell? asked else before.staged.cell? asked

variable {response : Response} {contribution : Contribution} {result : RegisterFile}

/-- A response that has been opened for a signature: its layout is that of the signature, and there is
room for all values. -/
structure OpenedFor (response : Response) (types : List DataType) : Prop where
  laidOut : Layout.ofTypes types = .ok response.returns
  staged : response.staged.sizes = response.returns.sizes

theorem exists_stage_of_fits {types : List DataType} (opened : response.OpenedFor types)
    (noValues : response.hasValues = false)
    (fits : result.sizes.covers response.returns.sizes = true) :
    ∃ staged, Marshalling.copyReturns response.returns result response.returns.indices
        response.staged response.returns.indices = (staged, .ok ()) ∧
      response.stage result =
        ({ response with staged := staged, hasValues := true }, .ok ()) := by
  obtain ⟨staged, copied, _, _⟩ := Marshalling.exists_copyReturns_of_covers
    (Layout.sound_of_ofTypes opened.laidOut) fits opened.staged
  refine ⟨staged, copied, ?_⟩
  unfold stage
  simp only [noValues, Bool.false_eq_true, if_false, copied]

/-- Values that do not fit are staged up to the first slot that is missing. -/
theorem exists_stage_of_not_fits {types : List DataType} (opened : response.OpenedFor types)
    (noValues : response.hasValues = false)
    (tooSmall : ¬result.sizes.covers response.returns.sizes = true) :
    ∃ staged slots slot others, response.returns.slots = slots ++ slot :: others ∧
      result.Covers slots ∧ result.sizes.get slot.bank ≤ slot.index ∧
      response.stage result =
        ({ response with staged := staged }, .error (result.overrunAt slot)) ∧
      staged.sizes = response.staged.sizes ∧
      ∀ asked, staged.cell? asked =
        if asked ∈ slots then result.cell? asked else response.staged.cell? asked := by
  have someMissing : ∃ slot ∈ response.returns.slots,
      result.sizes.get slot.bank ≤ slot.index := by
    by_contra noneMissing
    refine tooSmall ((Layout.covers_slots_iff opened.laidOut result).mp fun slot member => ?_)
    exact Nat.lt_of_not_le fun missing => noneMissing ⟨slot, member, missing⟩
  have someFound : (response.returns.slots.find? fun slot =>
      result.sizes.get slot.bank ≤ slot.index).isSome := by
    rw [List.find?_isSome]
    obtain ⟨slot, member, missing⟩ := someMissing
    exact ⟨slot, member, decide_eq_true missing⟩
  obtain ⟨slot, found⟩ := Option.isSome_iff_exists.mp someFound
  obtain ⟨isMissing, slots, others, split, present⟩ := List.find?_eq_some_iff_append.mp found
  have missing : result.sizes.get slot.bank ≤ slot.index := of_decide_eq_true isMissing
  have readable : result.Covers slots := fun earlier member => by
    simpa using present earlier member
  have writable : response.staged.Covers slots := fun earlier member => by
    rw [opened.staged]
    exact (Layout.sound_of_ofTypes opened.laidOut).inRange earlier
      (split ▸ List.mem_append_left _ member)
  obtain ⟨staged, broken, sized, contents⟩ :=
    @Marshalling.exists_copyAll_slots_broken result response.staged slots others slot readable writable
      missing
  refine ⟨staged, slots, slot, others, split, readable, missing, ?_, sized, contents⟩
  have copied : Marshalling.copyReturns response.returns result response.returns.indices
      response.staged response.returns.indices = (staged, .error (result.overrunAt slot)) := by
    rw [← split, ← Layout.deliveryPlan_eq] at broken
    exact broken
  unfold stage
  simp only [noValues, Bool.false_eq_true, if_false, copied]

theorem exists_recorded {types : List DataType} (opened : response.OpenedFor types)
    (holds : ¬response.BreaksDown contribution) :
    ∃ staged, (response.enlist contribution.worker).record contribution.outcome contribution.result =
        ({ response with
            contributors := contribution.worker :: response.contributors
            staged := staged
            hasValues := response.hasValues || contribution.values?.isSome
            error := response.error.or contribution.error?
            fault := response.fault.or contribution.fault? }, .ok ()) ∧
      if contribution.outcome = .returned ∧ response.hasValues = false then
        Marshalling.copyReturns response.returns contribution.result response.returns.indices
          response.staged response.returns.indices = (staged, .ok ())
      else staged = response.staged := by
  obtain ⟨worker, outcome, result⟩ := contribution
  cases outcome with
  | returned =>
      cases noValues : response.hasValues with
      | true =>
          refine ⟨response.staged, ?_, by simp⟩
          simp [record, stage, enlist, noValues, Contribution.values?, Contribution.error?,
            Contribution.fault?]
      | false =>
          have fits : result.sizes.covers response.returns.sizes = true := by
            by_contra tooSmall
            exact holds ⟨rfl, noValues, tooSmall⟩
          have enlisted : (response.enlist worker).OpenedFor types := ⟨opened.laidOut, opened.staged⟩
          obtain ⟨staged, copied, isStaged⟩ := exists_stage_of_fits enlisted noValues fits
          refine ⟨staged, isStaged.trans ?_, (if_pos ⟨rfl, rfl⟩).mpr copied⟩
          simp [enlist, Contribution.values?, Contribution.error?, Contribution.fault?]
  | finished | raised _ | faulted _ =>
      refine ⟨response.staged, ?_, by simp⟩
      simp [record, enlist, Contribution.values?, Contribution.error?, Contribution.fault?]

/-- What has been recorded counts as one contribution less that is outstanding. -/
theorem settle_eq (recorded : Response) :
    recorded.settle =
      ({ recorded with
          outstanding := recorded.outstanding - 1
          completions := recorded.completions + (decide (recorded.outstanding - 1 = 0)).toNat },
        decide (recorded.outstanding - 1 = 0)) := by
  unfold settle
  by_cases isLast : recorded.outstanding - 1 = 0
  · simp [isLast]
  · simp [isLast]

theorem outstanding_ne_zero_of_accepts {worker : ContextId}
    (accepted : response.accepts worker = true) : response.outstanding ≠ 0 := by
  unfold accepts at accepted
  simpa using (Bool.and_eq_true_iff.mp accepted).1

/-- An accepted contribution is recorded and then counted, unless recording it breaks down. -/
theorem accept_eq (accepted : response.accepts contribution.worker = true) :
    response.accept contribution =
      match (response.enlist contribution.worker).record contribution.outcome
        contribution.result with
      | (recorded, .ok ()) => (recorded.settle.1, .ok recorded.settle.2)
      | (recorded, .error overrun) => (recorded, .error overrun) := by
  unfold accept contribute
  rewrite [if_pos accepted]
  generalize (response.enlist contribution.worker).record contribution.outcome contribution.result =
    told
  obtain ⟨recorded, _ | _⟩ := told <;> rfl

theorem exists_counts {types : List DataType} (opened : response.OpenedFor types)
    (accepted : response.accepts contribution.worker = true)
    (holds : ¬response.BreaksDown contribution) :
    ∃ after completed, response.accept contribution = (after, .ok completed) ∧
      response.Counts contribution after completed := by
  obtain ⟨staged, isRecorded, isStaged⟩ := exists_recorded opened holds
  have someOutstanding := outstanding_ne_zero_of_accepts accepted
  rw [accept_eq accepted, isRecorded]
  refine ⟨_, _, rfl, ?_⟩
  rw [settle_eq]
  exact
    { returns := rfl
      waits := rfl
      contributors := rfl
      outstanding := (Nat.succ_pred someOutstanding).symm
      completes := rfl
      completions := rfl
      error := rfl
      fault := rfl
      values := rfl
      staged := isStaged }

theorem exists_strands {types : List DataType} (opened : response.OpenedFor types)
    (accepted : response.accepts contribution.worker = true)
    (breaks : response.BreaksDown contribution) :
    ∃ after overrun, response.accept contribution = (after, .error overrun) ∧
      response.Strands contribution after overrun := by
  obtain ⟨returned, noValues, tooSmall⟩ := breaks
  have enlisted : (response.enlist contribution.worker).OpenedFor types :=
    ⟨opened.laidOut, opened.staged⟩
  obtain ⟨staged, slots, slot, others, split, readable, missing, isStaged, sized, contents⟩ :=
    exists_stage_of_not_fits enlisted noValues tooSmall
  have isRecorded : (response.enlist contribution.worker).record contribution.outcome
      contribution.result = (response.enlist contribution.worker).stage contribution.result := by
    rw [returned]
    rfl
  rw [accept_eq accepted, isRecorded, isStaged]
  exact ⟨_, _, rfl, rfl, sized, slots, slot, others, split, readable, missing, rfl, contents⟩

/-- What becomes of a contribution: it changes nothing, it is counted completely, or it breaks down. -/
inductive Receives (before : Response) (contribution : Contribution) :
    Response → Except Overrun Bool → Prop
  | refused (refuses : before.accepts contribution.worker = false) :
    Receives before contribution before (.ok false)
  | counted {after : Response} {completed : Bool}
    (accepts : before.accepts contribution.worker = true)
    (holds : ¬before.BreaksDown contribution)
    (counts : before.Counts contribution after completed) :
    Receives before contribution after (.ok completed)
  | stranded {after : Response} {overrun : Overrun}
    (accepts : before.accepts contribution.worker = true)
    (breaks : before.BreaksDown contribution)
    (strands : before.Strands contribution after overrun) :
    Receives before contribution after (.error overrun)

variable {types : List DataType} {before after : Response} {answer : Except Overrun Bool}

theorem receives_accept (opened : response.OpenedFor types) (contribution : Contribution) :
    response.Receives contribution (response.accept contribution).1
      (response.accept contribution).2 := by
  cases accepted : response.accepts contribution.worker with
  | false =>
      have unchanged : response.accept contribution = (response, .ok false) :=
        contribute_eq_of_not_accepts response accepted _ _
      rw [unchanged]
      exact .refused accepted
  | true =>
      by_cases breaks : response.BreaksDown contribution
      · obtain ⟨after, overrun, isAnswer, strands⟩ := exists_strands opened accepted breaks
        rw [isAnswer]
        exact .stranded accepted breaks strands
      · obtain ⟨after, completed, isAnswer, counts⟩ := exists_counts opened accepted breaks
        rw [isAnswer]
        exact .counted accepted breaks counts

/-! ## What contributions keep -/

def saysBroken : Except Overrun Bool → Bool
  | .ok _ => false
  | .error _ => true

theorem Receives.openedFor (receives : before.Receives contribution after answer)
    (opened : before.OpenedFor types) : after.OpenedFor types := by
  cases receives with
  | refused _ => exact opened
  | counted _ holds counts =>
      refine ⟨counts.returns ▸ opened.laidOut, ?_⟩
      rw [counts.returns, ← opened.staged]
      have staged := counts.staged
      split at staged
      · rw [← Marshalling.sizes_copyReturns before.returns contribution.result before.returns.indices
          before.staged before.returns.indices, staged]
      · rw [staged]
  | stranded _ _ strands =>
      have returns : after.returns = before.returns := by rw [strands.recorded]
      exact ⟨returns ▸ opened.laidOut, by rw [strands.sized, returns, opened.staged]⟩

/-- Workers recorded and contributions outstanding are together one more after a breakdown, and as many
as before after anything else. -/
theorem Receives.length_add_outstanding (receives : before.Receives contribution after answer) :
    after.contributors.length + after.outstanding =
      before.contributors.length + before.outstanding + [answer].countP saysBroken := by
  cases receives with
  | refused _ => rfl
  | @counted _ completed _ _ counts =>
      have noneBroken : [Except.ok completed].countP saysBroken = 0 := rfl
      rw [counts.contributors, counts.outstanding, List.length_cons, noneBroken]
      omega
  | @stranded _ overrun _ _ strands =>
      have isBroken : [Except.error overrun].countP saysBroken = 1 := rfl
      rw [strands.recorded, List.length_cons, isBroken]
      exact Nat.add_right_comm _ 1 _

theorem not_mem_of_accepts {worker : ContextId} (accepted : response.accepts worker = true) :
    worker ∉ response.contributors := by
  unfold accepts at accepted
  simpa using (Bool.and_eq_true_iff.mp accepted).2

theorem accepts_of_mem {worker : ContextId} (recorded : worker ∈ response.contributors) :
    response.accepts worker = false := by
  by_contra accepted
  exact not_mem_of_accepts (Bool.not_eq_false _ ▸ accepted) recorded

/-- Accepted or not, a contribution adds its own worker to those recorded, if any. -/
theorem Receives.contributors (receives : before.Receives contribution after answer) :
    after.contributors = before.contributors ∨
      before.accepts contribution.worker = true ∧
        after.contributors = contribution.worker :: before.contributors := by
  cases receives with
  | refused _ => exact .inl rfl
  | counted accepts _ counts => exact .inr ⟨accepts, counts.contributors⟩
  | stranded accepts _ strands => exact .inr ⟨accepts, by rw [strands.recorded]⟩

theorem Receives.nodup (receives : before.Receives contribution after answer)
    (distinct : before.contributors.Nodup) : after.contributors.Nodup := by
  obtain same | ⟨accepts, added⟩ := receives.contributors
  · exact same ▸ distinct
  · exact added ▸ List.nodup_cons.mpr ⟨not_mem_of_accepts accepts, distinct⟩

theorem Receives.subset (receives : before.Receives contribution after answer) :
    before.contributors ⊆ after.contributors := by
  obtain same | ⟨_, added⟩ := receives.contributors
  · exact same ▸ List.Subset.refl _
  · exact added ▸ List.subset_cons_self _ _

/-! ## Whole runs -/

theorem contributors_expect (response : Response) (count : Nat) :
    (response.expect count).contributors = response.contributors := by
  rw [expect_eq]

theorem OpenedFor.expect (opened : response.OpenedFor types) (count : Nat) :
    (response.expect count).OpenedFor types := by
  rw [expect_eq]
  exact ⟨opened.laidOut, opened.staged⟩

theorem openedFor_ofReturns {returns : Layout} (laidOut : Layout.ofTypes types = .ok returns)
    (waits : Bool) : (ofReturns returns waits).OpenedFor types :=
  ⟨laidOut, RegisterFile.sizes_ofSizes returns.sizes⟩

/-- A response stays open for its signature, whatever happens to it. -/
theorem OpenedFor.run (opened : response.OpenedFor types) (events : List ResponseEvent) :
    (response.after events).OpenedFor types := by
  induction events using List.reverseRecOn with
  | nil => exact opened
  | append_singleton events event inductionHypothesis =>
      rw [after_snoc]
      cases event with
      | expected count => exact inductionHypothesis.expect count.toNat
      | contributed contribution =>
          exact (receives_accept inductionHypothesis contribution).openedFor inductionHypothesis

/-- Who has been recorded once stays recorded. -/
theorem OpenedFor.subset_after (opened : response.OpenedFor types) (events : List ResponseEvent) :
    response.contributors ⊆ (response.after events).contributors := by
  induction events using List.reverseRecOn with
  | nil => exact List.Subset.refl _
  | append_singleton events event inductionHypothesis =>
      rw [after_snoc]
      cases event with
      | expected count =>
          rw [receive, contributors_expect]
          exact inductionHypothesis
      | contributed contribution =>
          exact List.Subset.trans inductionHypothesis
            (receives_accept (opened.run events) contribution).subset

/-- Each worker is recorded once, and the workers recorded and the contributions outstanding are as many
as are expected, and one more for each breakdown. -/
theorem length_add_outstanding_after {returns : Layout}
    (laidOut : Layout.ofTypes types = .ok returns) (waits : Bool) (events : List ResponseEvent) :
    ((ofReturns returns waits).after events).contributors.Nodup ∧
      ((ofReturns returns waits).after events).contributors.length +
          ((ofReturns returns waits).after events).outstanding =
        (ofReturns returns waits).expectedAfter events +
          ((ofReturns returns waits).answers events).countP saysBroken := by
  induction events using List.reverseRecOn with
  | nil => exact ⟨List.nodup_nil, rfl⟩
  | append_singleton events event inductionHypothesis =>
      obtain ⟨distinct, balance⟩ := inductionHypothesis
      rw [after_snoc, answers_snoc, expectedAfter_snoc, List.countP_append]
      cases event with
      | expected count =>
          simp only [receive, contributors_expect, outstanding_expect, Option.toList_none,
            List.countP_nil]
          refine ⟨distinct, ?_⟩
          omega
      | contributed contribution =>
          have receives := receives_accept ((openedFor_ofReturns laidOut waits).run events)
            contribution
          refine ⟨receives.nodup distinct, ?_⟩
          have step := receives.length_add_outstanding
          simp only [receive, announced, Option.toList_some]
          omega

end Response

/-- Whatever happens to a response, each contribution either changes nothing, or is counted completely,
or breaks down because the results that it brings first are too small.  In the last case the worker has
been recorded, so that its contribution is never accepted again.  Workers recorded and contributions
outstanding are together as many as expected, and one more for each breakdown; expected is the sum of
all counts, as long as this is a machine word. -/
theorem contributions_counted_or_stranded {types : List DataType} {returns : Layout}
    (laidOut : Layout.ofTypes types = .ok returns) (waits : Bool) (events : List ResponseEvent) :
    let response := (Response.ofReturns returns waits).after events
    let expected := (Response.ofReturns returns waits).expectedAfter events
    response.returns = returns ∧ response.contributors.Nodup ∧
      response.contributors.length + response.outstanding = expected +
        ((Response.ofReturns returns waits).answers events).countP Response.saysBroken ∧
      (ResponseEvent.total events < UInt64.size → expected = ResponseEvent.total events) ∧
      ∀ contribution,
        response.Receives contribution (response.accept contribution).1
          (response.accept contribution).2 ∧
        (response.accepts contribution.worker = true → response.BreaksDown contribution →
          ∀ later, ((response.accept contribution).1.after later).accepts contribution.worker =
            false) := by
  intro response expected
  have opened : response.OpenedFor types := (Response.openedFor_ofReturns laidOut waits).run events
  obtain ⟨distinct, balance⟩ := Response.length_add_outstanding_after laidOut waits events
  refine ⟨Except.ok.inj (opened.laidOut.symm.trans laidOut), distinct, balance, fun isWord => ?_,
    fun contribution => ?_⟩
  · apply Response.expectedAfter_eq_total
    rwa [Response.ofReturns, Nat.zero_add]
  have receives := Response.receives_accept opened contribution
  refine ⟨receives, fun accepted breaks later => ?_⟩
  obtain ⟨after, overrun, isAnswer, strands⟩ := Response.exists_strands opened accepted breaks
  have recorded : contribution.worker ∈ (response.accept contribution).1.contributors := by
    rw [isAnswer, strands.recorded]
    exact List.mem_cons_self
  exact Response.accepts_of_mem ((receives.openedFor opened).subset_after later recorded)

/-- Of two workers the first returns nothing but an empty file and is stranded, the second one counts:
one contribution stays outstanding. -/
theorem contributions_counted_or_stranded_of_empty :
    let returns : Layout := ⟨[.int], [⟨.int, 0⟩], { longs := 1 }⟩
    let events : List ResponseEvent :=
      [.expected 2, .contributed ⟨1, .returned, .empty⟩, .contributed ⟨2, .finished, .empty⟩]
    let response := (Response.ofReturns returns true).after events
    Layout.ofTypes [.int] = .ok returns ∧
      response.contributors.length + response.outstanding = 2 + 1 ∧
      response.outstanding = 1 ∧ response.contributors = [2, 1] ∧
      ∀ later, (((Response.ofReturns returns true).after [.expected 2,
        .contributed ⟨1, .returned, .empty⟩]).after later).accepts 1 = false := by
  intro returns events response
  have laidOut : Layout.ofTypes [.int] = .ok returns := rfl
  have tooSmall : ¬RegisterFile.empty.sizes.covers returns.sizes = true := by decide
  refine ⟨laidOut, (contributions_counted_or_stranded laidOut true events).2.2.1, rfl, rfl, ?_⟩
  exact ((contributions_counted_or_stranded laidOut true [.expected 2]).2.2.2.2
    ⟨1, .returned, .empty⟩).2 rfl ⟨rfl, rfl, tooSmall⟩

/-- A worker whose results are too small is recorded although nothing of its contribution has been
counted: with one contribution expected, one worker is recorded and one contribution is outstanding, and
when the same worker contributes again it is ignored. -/
theorem breakdown_strands_response :
    let returns : Layout := ⟨[.int], [⟨.int, 0⟩], { longs := 1 }⟩
    let before := (Response.ofReturns returns true).after [.expected 1]
    let after := (before.accept ⟨1, .returned, .empty⟩).1
    before.contributors.length + before.outstanding = 1 ∧
      after.contributors.length + after.outstanding ≠ 1 ∧
      after.contributors ≠ before.contributors ∧ after.outstanding = before.outstanding ∧
      after.accept ⟨1, .finished, .empty⟩ = (after, .ok false) := by
  intro returns before after
  exact ⟨rfl, by decide, by decide, rfl, rfl⟩

end WorkerMachine
