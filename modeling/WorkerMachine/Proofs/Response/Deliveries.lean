import WorkerMachine.Proofs.Response.Breakdowns
/-!
# Deliveries

A delivery copies position by position, as far as the layout, the sources and the targets all reach.
The last position that goes to a slot decides what the slot holds, and nothing else changes.  What is
staged in a response and delivered from there comes to the same as one delivery straight from the
results of the worker.
-/

namespace WorkerMachine

/-- A position of a delivery copies one slot to another slot of the same bank.  It does so only if the
layout and both lists reach up to it. -/
structure Layout.Delivers (returns : Layout) (sources targets : List Nat) (position : Nat)
    (start finish : Slot) : Prop where
  declares : returns.banks[position]? = some start.bank
  sameBank : finish.bank = start.bank
  reads : sources[position]? = some start.index
  writes : targets[position]? = some finish.index

structure Layout.Delivered (returns : Layout) (source : RegisterFile) (sources : List Nat)
    (target : RegisterFile) (targets : List Nat) (after : RegisterFile) : Prop where
  sized : after.sizes = target.sizes
  /-- The last position that goes to a slot decides what it holds. -/
  brought : ∀ position start finish, returns.Delivers sources targets position start finish →
    (∀ later other, position < later → ¬returns.Delivers sources targets later other finish) →
      after.cell? finish = source.cell? start
  /-- A slot to which no position goes is left alone. -/
  kept : ∀ slot, (∀ position start, ¬returns.Delivers sources targets position start slot) →
    after.cell? slot = target.cell? slot

namespace Marshalling

variable {returns : Layout} {source target after : RegisterFile} {sources targets : List Nat}
  {position : Nat} {start finish : Slot}

theorem getElem?_deliveryPlan (banks : List Bank) (sources targets : List Nat) (position : Nat)
    (entry : Bank × Nat × Nat) :
    (deliveryPlan banks sources targets)[position]? = some entry ↔
      banks[position]? = some entry.1 ∧ sources[position]? = some entry.2.1 ∧
        targets[position]? = some entry.2.2 := by
  induction banks generalizing sources targets position with
  | nil => simp [deliveryPlan]
  | cons bank banks inductionHypothesis =>
      cases sources with
      | nil => simp [deliveryPlan]
      | cons sourceIndex sources =>
          cases targets with
          | nil => simp [deliveryPlan]
          | cons targetIndex targets =>
              cases position with
              | zero => simp [deliveryPlan, Prod.ext_iff]
              | succ position => exact inductionHypothesis sources targets position

theorem delivers_of_getElem? {entry : Bank × Nat × Nat}
    (planned : (deliveryPlan returns.banks sources targets)[position]? = some entry) :
    returns.Delivers sources targets position (origin entry) (goal entry) := by
  obtain ⟨declares, reads, writes⟩ := (getElem?_deliveryPlan _ _ _ _ _).mp planned
  exact ⟨declares, rfl, reads, writes⟩

theorem getElem?_of_delivers
    (delivers : returns.Delivers sources targets position start finish) :
    (deliveryPlan returns.banks sources targets)[position]? =
      some (start.bank, start.index, finish.index) :=
  (getElem?_deliveryPlan _ _ _ _ _).mpr ⟨delivers.declares, delivers.reads, delivers.writes⟩

theorem Copied.delivered
    (copied : Copied source (deliveryPlan returns.banks sources targets) target after) :
    returns.Delivered source sources target targets after := by
  refine ⟨copied.sized, fun position start finish delivers isLast => ?_, fun slot elsewhere => ?_⟩
  · have planned := getElem?_of_delivers delivers
    obtain ⟨inside, isEntry⟩ := List.getElem?_eq_some_iff.mp planned
    have split : deliveryPlan returns.banks sources targets =
        (deliveryPlan returns.banks sources targets).take position ++
          (start.bank, start.index, finish.index) ::
            (deliveryPlan returns.banks sources targets).drop (position + 1) := by
      rw [← isEntry, List.getElem_cons_drop, List.take_append_drop]
    have sameGoal : goal (start.bank, start.index, finish.index) = finish := by
      rw [goal, ← delivers.sameBank]
    have noneLater : ∀ later ∈ (deliveryPlan returns.banks sources targets).drop (position + 1),
        goal later ≠ goal (start.bank, start.index, finish.index) := by
      intro later member isGoal
      obtain ⟨offset, isLater⟩ := List.mem_iff_getElem?.mp member
      rw [List.getElem?_drop] at isLater
      refine isLast (position + 1 + offset) (origin later) (by omega) ?_
      rw [← sameGoal, ← isGoal]
      exact delivers_of_getElem? isLater
    have brought := copied.brought _ _ _ split noneLater
    rwa [sameGoal] at brought
  · refine copied.kept slot fun entry member isGoal => ?_
    obtain ⟨position, planned⟩ := List.mem_iff_getElem?.mp member
    exact elsewhere position (origin entry) (isGoal ▸ delivers_of_getElem? planned)

/-- A delivery between slots that exist takes place. -/
theorem exists_delivered
    (inRange : ∀ position start finish, returns.Delivers sources targets position start finish →
      start.index < source.sizes.get start.bank ∧ finish.index < target.sizes.get finish.bank) :
    ∃ after, copyReturns returns source sources target targets = (after, .ok ()) ∧
      returns.Delivered source sources target targets after := by
  have planned : ∀ entry ∈ deliveryPlan returns.banks sources targets,
      (origin entry).index < source.sizes.get (origin entry).bank ∧
        (goal entry).index < target.sizes.get (goal entry).bank := by
    intro entry member
    obtain ⟨position, isEntry⟩ := List.mem_iff_getElem?.mp member
    exact inRange position _ _ (delivers_of_getElem? isEntry)
  obtain ⟨after, copiedAll, copied⟩ := exists_copied (fun entry member => (planned entry member).1)
    fun entry member => (planned entry member).2
  exact ⟨after, copiedAll, copied.delivered⟩

end Marshalling

/-! ## Deliveries by way of a response -/

namespace Response

variable {types : List DataType} {response before after : Response} {contribution : Contribution}
  {answer : Except Overrun Bool}

/-- A response has values, and these are the ones staged for a layout. -/
structure Stages (response : Response) (returns : Layout) (staged : RegisterFile) : Prop where
  hasValues : response.hasValues = true
  returns : response.returns = returns
  staged : response.staged = staged

/-- Once there are values, no contribution stages others. -/
theorem Receives.stages {returns : Layout} {staged : RegisterFile}
    (receives : before.Receives contribution after answer) (stages : before.Stages returns staged) :
    after.Stages returns staged := by
  cases receives with
  | refused _ => exact stages
  | counted _ _ counts =>
      have noneStaged : ¬(contribution.outcome = .returned ∧ before.hasValues = false) := by
        simp [stages.hasValues]
      have sameStaged : after.staged = before.staged := by
        simpa only [if_neg noneStaged] using counts.staged
      exact ⟨by rw [counts.values, stages.hasValues, Bool.true_or],
        counts.returns.trans stages.returns, sameStaged.trans stages.staged⟩
  | stranded _ breaks _ =>
      exact absurd stages.hasValues (by simp [breaks.2.1])

theorem OpenedFor.stages_after {returns : Layout} {staged : RegisterFile}
    (opened : response.OpenedFor types) (stages : response.Stages returns staged)
    (events : List ResponseEvent) : (response.after events).Stages returns staged := by
  induction events using List.reverseRecOn with
  | nil => exact stages
  | append_singleton events event inductionHypothesis =>
      rw [after_snoc]
      cases event with
      | expected count =>
          rw [receive, expect_eq]
          exact ⟨inductionHypothesis.hasValues, inductionHypothesis.returns,
            inductionHypothesis.staged⟩
      | contributed contribution =>
          exact (receives_accept (opened.run events) contribution).stages inductionHypothesis

/-- The first values that are accepted are the ones that get delivered, however late. -/
theorem OpenedFor.deliverInto_after (opened : response.OpenedFor types)
    (accepted : response.accepts contribution.worker = true)
    (returned : contribution.outcome = .returned) (noValues : response.hasValues = false)
    (fits : contribution.Fits response.returns) :
    ∃ completed, (response.accept contribution).2 = .ok completed ∧
      ∀ later target indices,
        ((response.accept contribution).1.after later).deliverInto target indices =
          Marshalling.copyReturns response.returns contribution.result response.returns.indices
            target indices := by
  obtain ⟨after, completed, isAnswer, counts⟩ :=
    exists_counts opened accepted fun breaks => breaks.2.2 fits
  have staged := counts.staged
  rw [if_pos ⟨returned, noValues⟩] at staged
  have sound := Layout.sound_of_ofTypes opened.laidOut
  obtain ⟨file, copied, _, contents⟩ :=
    Marshalling.exists_copyReturns_of_covers sound fits opened.staged
  obtain rfl : file = after.staged := congrArg Prod.fst (copied.symm.trans staged)
  have stages : after.Stages response.returns after.staged :=
    ⟨by simp [counts.values, Contribution.values?, returned], counts.returns, rfl⟩
  have openedAfter : after.OpenedFor types :=
    (Receives.counted accepted (fun breaks => breaks.2.2 fits) counts).openedFor opened
  refine ⟨completed, by rw [isAnswer], fun later target indices => ?_⟩
  have stagesLater := openedAfter.stages_after stages later
  rw [isAnswer, deliverInto, stagesLater.returns, stagesLater.staged]
  exact (Marshalling.copyReturns_congr sound fits (fun slot member => (contents slot member).symm)
    target indices).symm

end Response

/-- A delivery between slots that exist gives each slot what the last position that goes to it brings,
and changes nothing else.  In a response that has been opened for a signature the first values are
staged, whatever has happened to it before, if the results of the worker have all slots of the layout;
delivering them, whatever happens in between, is the same as a delivery straight from these results. -/
theorem delivery_writes_named_slots (returns : Layout) :
    (∀ source sources target targets,
      (∀ position start finish, returns.Delivers sources targets position start finish →
        start.index < source.sizes.get start.bank ∧
          finish.index < target.sizes.get finish.bank) →
      ∃ after, Marshalling.copyReturns returns source sources target targets = (after, .ok ()) ∧
        returns.Delivered source sources target targets after) ∧
    ∀ types, Layout.ofTypes types = .ok returns → ∀ waits events contribution,
      let response := (Response.ofReturns returns waits).after events
      response.accepts contribution.worker = true → contribution.outcome = .returned →
      response.hasValues = false → contribution.result.Covers returns.slots →
      ∃ completed, (response.accept contribution).2 = .ok completed ∧
        ∀ later target indices,
          ((response.accept contribution).1.after later).deliverInto target indices =
            Marshalling.copyReturns returns contribution.result returns.indices target indices := by
  refine ⟨fun source sources target targets => Marshalling.exists_delivered, ?_⟩
  intro types laidOut waits events contribution response accepted returned noValues covers
  have opened : response.OpenedFor types := (Response.openedFor_ofReturns laidOut waits).run events
  have sameReturns : response.returns = returns :=
    Except.ok.inj (opened.laidOut.symm.trans laidOut)
  have fits : contribution.Fits response.returns :=
    sameReturns ▸ (Layout.covers_slots_iff laidOut contribution.result).mp covers
  obtain ⟨completed, isAnswer, delivered⟩ :=
    opened.deliverInto_after accepted returned noValues fits
  exact ⟨completed, isAnswer, fun later target indices =>
    (delivered later target indices).trans (by rw [sameReturns])⟩

/-- Two integers go to the same slot and a boolean to the same index of its own bank; the fourth position
has no source.  By way of a response the first values count, whoever contributes afterwards. -/
theorem delivery_writes_named_slots_of_mixed :
    let types : List DataType := [.int, .boolean, .int, .int]
    let returns : Layout := ⟨types, [⟨.int, 0⟩, ⟨.boolean, 0⟩, ⟨.int, 1⟩, ⟨.int, 2⟩],
      { longs := 3, ints := 1 }⟩
    let result : RegisterFile := { longs := #[7, 8, 9], ints := #[1] }
    let target : RegisterFile := { longs := #[0, 0], ints := #[4, 5] }
    let after : RegisterFile := { longs := #[0, 7], ints := #[4, 1] }
    let response := (Response.ofReturns returns true).after
      [.expected 3, .contributed ⟨1, .finished, .empty⟩]
    returns.Delivered result [2, 0, 0] target [1, 1, 1, 5] after ∧
      ((response.accept ⟨2, .returned, result⟩).1.after
          [.contributed ⟨3, .returned, .empty⟩]).deliverInto target [0] =
        ({ longs := #[7, 0], ints := #[4, 5] }, .ok ()) := by
  intro types returns result target after response
  have laidOut : Layout.ofTypes types = .ok returns := rfl
  have covers : result.Covers returns.slots :=
    (Layout.covers_slots_iff laidOut result).mpr (by decide)
  obtain ⟨delivers, staged⟩ := delivery_writes_named_slots returns
  constructor
  · have planned : ∀ entry ∈ Marshalling.deliveryPlan returns.banks [2, 0, 0] [1, 1, 1, 5],
        (Marshalling.origin entry).index < result.sizes.get (Marshalling.origin entry).bank ∧
          (Marshalling.goal entry).index < target.sizes.get (Marshalling.goal entry).bank := by
      decide
    obtain ⟨reached, copied, delivered⟩ :=
      delivers result [2, 0, 0] target [1, 1, 1, 5] fun position start finish delivers => by
        rw [delivers.sameBank]
        exact planned _ (List.mem_of_getElem? (Marshalling.getElem?_of_delivers delivers))
    obtain rfl : reached = after := congrArg Prod.fst copied.symm
    exact delivered
  · obtain ⟨completed, _, delivered⟩ := staged types laidOut true
      [.expected 3, .contributed ⟨1, .finished, .empty⟩] ⟨2, .returned, result⟩ rfl rfl rfl covers
    exact (delivered [.contributed ⟨3, .returned, .empty⟩] target [0]).trans rfl

end WorkerMachine
