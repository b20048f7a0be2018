import WorkerMachine.Proofs.Clearance.Calls
/-!
# Passing the gate and clearance

A context that passes the gate of a package is cleared for it, or has to run its init itself, or is
refused.  What a call finds out in one phase of its passage may be out of date in the next one, but
whether a context descends from another one does not depend on the moment.
-/

namespace WorkerMachine

open Clearance

/-! ## Ancestors in the arena -/

section Ancestry

variable {machine : Machine} {activities : Activities} {context ancestor : ContextId}
  {activity : Activity}

theorem Arena.lineage_succ_of_standing? {arena : Arena} {parent : Option ContextId}
    {state : ContextState} (stands : arena.standing? context = some (parent, state)) (bound : Nat) :
    arena.lineage (bound + 1) context =
      context :: (parent.map (arena.lineage bound)).getD [] := by
  obtain ⟨record, found, same⟩ := Option.map_eq_some_iff.mp stands
  cases same
  unfold lineage
  rw [found]
  cases isParent : record.parent <;> simp [isParent]

namespace Clearance

theorem Sound.exists_parent (sound : Sound machine.scene activities)
    (found : activities context = some activity) (stays : activity.role ≠ .leaving)
    {parent : ContextId} (isParent : activity.parent = some parent) :
    ∃ holder, activities parent = some holder ∧ holder.role ≠ .leaving := by
  obtain ⟨holder, isHolder, awaits⟩ :=
    sound.tree.awaited context activity parent found stays isParent
  refine ⟨holder, isHolder, sound.not_leaving isHolder fun nothing => ?_⟩
  rw [nothing] at awaits
  exact awaits.elim

theorem Sound.descends_of_mem_lineage (sound : Sound machine.scene activities)
    (found : activities context = some activity) (stays : activity.role ≠ .leaving) {bound : Nat}
    (member : ancestor ∈ (machine.arena Machine.ownArena).lineage bound context) :
    Descends activities context ancestor := by
  induction bound generalizing context activity with
  | zero =>
      cases member
  | succ bound inductionHypothesis =>
      rw [Arena.lineage_succ_of_standing? (sound.tree.recorded context activity found)] at member
      rcases List.mem_cons.mp member with rfl | above
      · exact .refl
      · cases isParent : activity.parent with
        | none =>
            rw [isParent] at above
            cases above
        | some parent =>
            rw [isParent] at above
            obtain ⟨holder, isHolder, notLeaving⟩ := sound.exists_parent found stays isParent
            exact .head ⟨activity, found, isParent⟩ (inductionHypothesis isHolder notLeaving above)

theorem Sound.mem_lineage_of_descends (sound : Sound machine.scene activities)
    (descends : Descends activities context ancestor)
    (found : activities context = some activity) (stays : activity.role ≠ .leaving) {bound : Nat}
    (enough : context < bound) :
    ancestor ∈ (machine.arena Machine.ownArena).lineage bound context := by
  induction bound generalizing context activity with
  | zero =>
      cases enough
  | succ bound inductionHypothesis =>
      rw [Arena.lineage_succ_of_standing? (sound.tree.recorded context activity found)]
      rcases descends.cases_head with rfl | ⟨parent, ⟨own, isOwn, isParent⟩, rest⟩
      · exact List.mem_cons_self
      · rw [found] at isOwn
        cases isOwn
        obtain ⟨holder, isHolder, notLeaving⟩ := sound.exists_parent found stays isParent
        have older := sound.tree.older context activity parent found isParent
        rw [isParent]
        exact List.mem_cons_of_mem _ (inductionHypothesis rest isHolder notLeaving
          (Nat.lt_of_lt_of_le older (Nat.le_of_lt_succ enough)))

theorem Sound.descends_iff_mem_ancestry (sound : Sound machine.scene activities)
    (found : activities context = some activity) (stays : activity.role ≠ .leaving) :
    Descends activities context ancestor ↔
      ancestor ∈ (machine.arena Machine.ownArena).ancestry context :=
  ⟨fun descends => sound.mem_lineage_of_descends descends found stays (Nat.lt_succ_self context),
    sound.descends_of_mem_lineage found stays⟩

theorem Sound.admits (sound : Sound machine.scene activities)
    (found : activities context = some activity) (stays : activity.role ≠ .leaving)
    {package : String} (cleared : Cleared machine.scene activities package context) :
    machine.Admits package context := by
  rcases cleared with initialized | ⟨mark, isMark, descends⟩
  · left
    have isOk := (Gate.outcome?_eq_some_iff machine.gate package (.ok ())).mpr initialized
    unfold Gate.isInitialized
    rw [isOk]
  · exact .inr ⟨mark, isMark, (sound.descends_iff_mem_ancestry found stays).mp descends⟩

theorem Sound.cleared_of_descends (sound : Sound machine.scene activities)
    (found : activities context = some activity) (stays : activity.role ≠ .leaving)
    {package : String} (noInit : activity.role ≠ .init package)
    (called : (package, ancestor) ∈ machine.scene.inits)
    (descends : Descends activities context ancestor) :
    Cleared machine.scene activities package context := by
  rcases sound.tree.busy_of_descends found stays descends with rfl | ⟨above, isAbove, busy⟩
  · exact absurd ((sound.inits.called package ancestor called).2 activity found) noInit
  · have ofInit := (sound.inits.called package ancestor called).2 above isAbove
    have busyWith : above.pursuit ≠ .nothing := by
      intro nothing
      rw [nothing] at busy
      exact busy
    obtain ⟨mark, isMark, rfl⟩ := sound.inits.marks ancestor above package isAbove ofInit busyWith
    exact .inr ⟨mark, isMark, descends⟩

end Clearance

end Ancestry

/-! ## Phases of a passage -/

def GatePhase.pursuit (package : String) : GatePhase → Pursuit
  | .judgeMark mark => .judging package mark.context
  | .beginInit | .answered .claimed => .initializing package none false
  | .leave (.ok ()) | .answered (.outcome (.ok ())) => .cleared package
  | _ => .nothing

def Clearance.Role.MayClaim (role : Role) : Prop :=
  role ≠ .leaving ∧ ∀ package, role ≠ .init package

variable {machine : Machine} {activities : Activities} {caller : ContextId} {activity : Activity}
  {state : ContextState} {package : String}

theorem Gate.stage_of_not_contains {gate : Gate} (absent : ¬gate.cells.contains package = true) :
    gate.stage package = .untouched := by
  unfold stage
  cases isCell : gate.cells.get? package with
  | none => rfl
  | some cell => simp [Table.contains, isCell] at absent

theorem Gate.stage_eq_of_outcome? {gate : Gate} (none : gate.outcome? package = none)
    (notRunning : gate.isRunning package = false) : gate.stage package = .untouched := by
  unfold outcome? isRunning at *
  unfold stage
  cases isCell : gate.cells.get? package with
  | none => rfl
  | some cell => cases cell <;> simp_all

/-- One phase of a passage, taken by a context that may initialize packages. -/
theorem Clearance.Sound.advance (sound : Sound machine.scene activities) {phase next : GatePhase}
    (found : activities caller = some (activity.being state (phase.pursuit package)))
    (mayClaim : activity.role.MayClaim) (ready : machine.gate.ready package phase = true)
    {descends : ContextId → Bool}
    (descent : ∀ ancestor, descends ancestor = true → Descends activities caller ancestor)
    {thread : ThreadId} {gate : Gate}
    (turn : machine.gate.advance thread package descends phase = (next, gate)) :
    Sound { machine.scene with mark := gate.marks.get?, stage := gate.stage }
      (Function.update activities caller
        (some (activity.being state (next.pursuit package)))) := by
  have idle : ∀ {gate : Gate} {pursuit : Pursuit}, gate.marks = machine.gate.marks →
      gate.stage = machine.gate.stage → ¬(phase.pursuit package).IsBusy → ¬pursuit.IsBusy →
        pursuit.Holds machine.scene activities caller →
          Sound { machine.scene with mark := gate.marks.get?, stage := gate.stage }
            (Function.update activities caller (some (activity.being state pursuit))) := by
    intro gate pursuit marks stage isIdle stillIdle holds
    rw [marks, stage]
    exact sound.pursue found mayClaim.1 isIdle stillIdle
      (fun package ofInit => absurd ofInit (mayClaim.2 package)) holds
  have still : ∀ {pursuit : Pursuit}, activities caller = some (activity.being state pursuit) →
      Sound machine.scene
        (Function.update activities caller (some (activity.being state pursuit))) := by
    intro pursuit isPursuit
    rw [← isPursuit, Function.update_eq_self]
    exact sound
  have settled : ∀ outcome, machine.gate.outcome? package = some outcome →
      ((GatePhase.leave outcome).pursuit package).Holds machine.scene activities caller := by
    intro outcome isSettled
    cases outcome with
    | ok _ => exact .inl ((Gate.outcome?_eq_some_iff _ _ _).mp isSettled)
    | error _ => trivial
  cases phase with
  | lookForMark =>
      simp only [Gate.advance] at turn
      split at turn
      · next mark isMark =>
        cases turn
        exact idle rfl rfl id id (sound.inits.noted package mark isMark)
      · cases turn
        exact idle rfl rfl id id trivial
  | judgeMark mark =>
      simp only [Gate.advance] at turn
      split at turn
      · next isAncestor =>
        -- The mark was looked up in an earlier step, but below its context the init cannot have ended.
        cases turn
        exact idle rfl rfl id id (sound.cleared_of_descends found mayClaim.1 (mayClaim.2 package)
          (sound.holds caller _ found) (descent mark.context isAncestor))
      · split at turn
        · cases turn
          exact idle rfl rfl id id trivial
        · cases turn
          exact idle rfl rfl id id trivial
  | openCell =>
      simp only [Gate.advance] at turn
      split at turn
      · cases turn
        exact idle rfl rfl id id trivial
      · next isAbsent =>
        cases turn
        refine idle rfl ?_ id id trivial
        rw [Gate.stage_setCell, Function.update_eq_self_iff]
        exact (Gate.stage_of_not_contains isAbsent).symm
  | lookForOutcome =>
      simp only [Gate.advance] at turn
      split at turn
      · next outcome isSettled =>
        cases turn
        cases outcome with
        | ok _ => exact idle rfl rfl id id (settled _ isSettled)
        | error _ => exact idle rfl rfl id id trivial
      · cases turn
        exact idle rfl rfl id id trivial
  | announceWait | countWaits | refuse =>
      cases turn
      exact idle rfl rfl id id trivial
  | findHolder held turns =>
      cases turns with
      | zero =>
          cases turn
          exact idle rfl rfl id id trivial
      | succ turns =>
          simp only [Gate.advance] at turn
          split at turn
          · cases turn
            exact idle rfl rfl id id trivial
          · split at turn
            · cases turn
              exact idle rfl rfl id id trivial
            · cases turn
              exact idle rfl rfl id id trivial
  | findWait holder turns =>
      simp only [Gate.advance] at turn
      split at turn
      · cases turn
        exact idle rfl rfl id id trivial
      · cases turn
        exact idle rfl rfl id id trivial
  | enterCell =>
      simp only [Gate.advance] at turn
      split at turn
      · next outcome isSettled =>
        cases turn
        cases outcome with
        | ok _ => exact idle rfl rfl id id (settled _ isSettled)
        | error _ => exact idle rfl rfl id id trivial
      · next isNone =>
        -- The cell is neither settled nor running, so this context is the first to take it over.
        cases turn
        have notRunning : machine.gate.isRunning package = false := by
          simpa [Gate.ready] using ready
        have claimed := sound.claim found mayClaim.1 mayClaim.2 rfl
          (Gate.stage_eq_of_outcome? isNone notRunning)
        rw [Gate.stage_setCell]
        exact claimed
  | beginInit =>
      cases turn
      exact still found
  | leave outcome =>
      cases turn
      cases outcome with
      | ok _ => exact still found
      | error _ => exact still found
  | answered answer =>
      cases turn
      exact still found

/-- A passage leaves every outcome as it is. -/
theorem Gate.stage_advance (gate : Gate) (thread : ThreadId) (package : String)
    (descends : ContextId → Bool) (phase : GatePhase) {asked : String} {outcome : Except Fault Unit}
    (settled : gate.stage asked = .settled outcome) :
    (gate.advance thread package descends phase).2.stage asked = .settled outcome := by
  have elsewhere : ∀ cell, (∀ outcome, gate.stage package ≠ .settled outcome) →
      (gate.setCell package cell).stage asked = .settled outcome := by
    intro cell unsettled
    rw [stage_setCell, Function.update_of_ne, settled]
    rintro rfl
    exact unsettled outcome settled
  cases phase with
  | openCell =>
      simp only [advance]
      split
      · exact settled
      · next absent =>
        refine elsewhere _ fun outcome isSettled => ?_
        rw [stage_of_not_contains absent] at isSettled
        cases isSettled
  | enterCell =>
      simp only [advance]
      split
      · exact settled
      · next isNone =>
        refine elsewhere _ fun outcome isSettled => ?_
        rw [(outcome?_eq_some_iff gate package outcome).mpr isSettled] at isNone
        cases isNone
  | judgeMark mark =>
      simp only [advance]
      split
      · exact settled
      · split
        · exact settled
        · exact settled
  | findHolder held turns =>
      cases turns with
      | zero =>
          exact settled
      | succ turns =>
          simp only [advance]
          split
          · exact settled
          · split
            · exact settled
            · exact settled
  | lookForMark | lookForOutcome | findWait _ _ =>
      simp only [advance]
      split
      · exact settled
      · exact settled
  | announceWait | countWaits | refuse | beginInit | leave _ | answered _ =>
      exact settled

/-! ## Whole passages -/

namespace Station

variable {station : Station} {rest : Hand}

/-- A thread that goes through phases of a passage is after what the phase tells. -/
theorem advancePhases_follows_clearing (mayClaim : activity.role.MayClaim) (bound : Nat)
    (phase : GatePhase) :
    (station.advancePhases package caller bound phase).Follows .clearing station.thread
      ((caller, activity.being state (phase.pursuit package)) :: rest) fun last token =>
        token = (caller, activity.being state (last.pursuit package)) :: rest ∧
          last.untilCounted ≤ phase.untilCounted - bound ∧
          (phase.untilCounted = 0 → last.untilAnswered ≤ phase.untilAnswered - bound) := by
  induction bound generalizing phase with
  | zero =>
      exact ⟨rfl, le_refl _, fun _ => le_refl _⟩
  | succ bound inductionHypothesis =>
      cases answered : phase.answer? with
      | some answer =>
          cases phase <;> cases answered
          exact ⟨rfl, Nat.zero_le _, fun _ => Nat.zero_le _⟩
      | none =>
          rw [advancePhases_succ station package caller bound answered]
          intro machine hands fits holding
          refine ⟨fun isReady => ?_, fun _ => trivial⟩
          beta_reduce
          generalize isDescent : (fun context : ContextId =>
            ((machine.arena Machine.ownArena).ancestry caller).contains context) = descends
          have counted := GatePhase.untilCounted_advance station.thread package descends
            machine.gate phase
          have nearing := GatePhase.untilAnswered_advance station.thread package descends
            machine.gate phase
          have settled := @Gate.stage_advance machine.gate station.thread package descends phase
          obtain ⟨next, gate, turn⟩ : ∃ next gate,
              machine.gate.advance station.thread package descends phase = (next, gate) :=
            ⟨_, _, rfl⟩
          rw [turn] at counted nearing settled
          rw [turn]
          dsimp only at counted nearing settled
          have exchanges : Exchanges machine { machine with gate := gate } station.thread
              ((caller, activity.being state (phase.pursuit package)) :: rest)
              ((caller, activity.being state (next.pursuit package)) :: rest) := by
            refine exchanges_head rfl id fun activities known => ?_
            have found := known.2 _ List.mem_cons_self
            refine known.1.advance found mayClaim isReady (fun ancestor isAncestor => ?_) turn
            rw [← isDescent] at isAncestor
            exact (known.1.descends_iff_mem_ancestry found mayClaim.1).mpr
              (List.contains_iff_mem.mp isAncestor)
          refine ⟨Machine.permits_of_quiet rfl fun asked outcome => settled, _,
            exchanges hands fits holding, ?_⟩
          refine (inductionHypothesis next).weaken fun last token reached => ?_
          obtain ⟨inStep, nearCount, nearAnswer⟩ := reached
          refine ⟨inStep, by omega, fun isCounted => ?_⟩
          have nearer := nearing isCounted
          have fewer := nearAnswer (by omega)
          omega

/-- A passage ends with an answer of the gate, and the caller is cleared if it may go on. -/
theorem passGate_follows_clearing (mayClaim : activity.role.MayClaim) :
    (station.passGate package caller).Follows .clearing station.thread
      ((caller, activity.being state .nothing) :: rest) fun last token =>
        ∃ answer, last = .answered answer ∧
          token = (caller, activity.being state (last.pursuit package)) :: rest := by
  have counted : (station.advancePhases package caller 6 .lookForMark).Follows .clearing
      station.thread ((caller, activity.being state .nothing) :: rest) _ :=
    station.advancePhases_follows_clearing mayClaim 6 .lookForMark
  refine Process.Follows.bind counted ?_
  rintro middle _ ⟨rfl, nearCount, _⟩
  have isCounted : middle.untilCounted = 0 := Nat.le_zero.mp nearCount
  refine (station.advancePhases_follows_clearing mayClaim _ middle).weaken ?_
  rintro last token ⟨inStep, stillCounted, nearAnswer⟩
  have nearEnd := nearAnswer isCounted
  have isAnswered : last.answer?.isSome = true :=
    GatePhase.isSome_answer?_of_done (by omega) (by omega)
  obtain ⟨answer, isAnswer⟩ := Option.isSome_iff_exists.mp isAnswered
  cases last <;> cases isAnswer
  exact ⟨answer, rfl, inStep⟩

end Station

end WorkerMachine
