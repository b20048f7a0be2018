import WorkerMachine.Proofs.Constants.Resolving
import WorkerMachine.Proofs.Script.Following
/-!
# The outcomes of inits stay

Only a thread that has claimed a package writes to the cell of the package, and as long as it has the
claim the init is running.  So what an init has come to stays as it is, also where other inits are
broken off.
-/

namespace WorkerMachine

open Clearance

variable {Thread : Type} [DecidableEq Thread]

/-- The inits of the packages that threads have claimed are running, and every package has been claimed
only once. -/
structure ClaimedOnce (machine : Machine) (hands : Thread → List String) : Prop where
  running : ∀ thread, ∀ name ∈ hands thread, machine.gate.stage name = .running
  apart : ∀ thread other name, name ∈ hands thread → name ∈ hands other → thread = other
  once : ∀ thread, (hands thread).Nodup

/-- What inits have come to stays. -/
def Machine.KeepsOutcomes (before after : Machine) : Prop :=
  ∀ name outcome, before.gate.outcome? name = some outcome → after.gate.outcome? name = some outcome

/-- The discipline of threads that write to the cells of packages only while they have claimed them. -/
def Discipline.keepingOutcomes (Thread : Type) : Discipline Thread Machine (List String) where
  fits := ClaimedOnce
  permits := Machine.KeepsOutcomes
  excuses := fun _ _ _ => True
  permits_refl := fun _ _ _ => id

namespace ClaimedOnce

variable {machine later : Machine} {hands : Thread → List String} {thread : Thread}
  {rest exchanged : List String} {name : String} {stage : Stage}

omit [DecidableEq Thread] in
/-- A step that leaves the stages alone is permitted, and does not matter to claims. -/
theorem of_same (claimed : ClaimedOnce machine hands) (same : later.gate.stage = machine.gate.stage) :
    machine.KeepsOutcomes later ∧ ClaimedOnce later hands := by
  refine ⟨fun name outcome settled => ?_, ?_, claimed.apart, claimed.once⟩
  · rw [Gate.outcome?_eq_some_iff] at settled ⊢
    rw [same]
    exact settled
  · rw [same]
    exact claimed.running

/-- A turn in the claims on one package that has not been settled, made by a thread beside which nobody
claims the package. -/
theorem turn (claimed : ClaimedOnce machine hands)
    (unsettled : ∀ outcome, machine.gate.stage name ≠ .settled outcome)
    (alone : ∀ other, other ≠ thread → name ∉ hands other)
    (changed : later.gate.stage = Function.update machine.gate.stage name stage)
    (others : ∀ claim ∈ exchanged, claim ≠ name → claim ∈ hands thread) (once : exchanged.Nodup)
    (own : name ∈ exchanged → stage = .running) :
    machine.KeepsOutcomes later ∧ ClaimedOnce later (Function.update hands thread exchanged) := by
  have stageOf : ∀ other, other ≠ name → later.gate.stage other = machine.gate.stage other := by
    intro other different
    rw [changed, Function.update_of_ne different]
  have cases : ∀ holder, ∀ claim ∈ Function.update hands thread exchanged holder,
      claim ≠ name ∧ claim ∈ hands holder ∨ claim = name ∧ holder = thread ∧ name ∈ exchanged := by
    intro holder claim member
    by_cases isThread : holder = thread
    · subst isThread
      rw [Function.update_self] at member
      by_cases isName : claim = name
      · exact .inr ⟨isName, rfl, isName ▸ member⟩
      · exact .inl ⟨isName, others claim member isName⟩
    · rw [Function.update_of_ne isThread] at member
      refine .inl ⟨?_, member⟩
      rintro rfl
      exact alone holder isThread member
  refine ⟨?_, ?_, ?_, ?_⟩
  · intro other outcome settled
    rw [Gate.outcome?_eq_some_iff] at settled ⊢
    rw [stageOf other]
    · exact settled
    · rintro rfl
      exact unsettled outcome settled
  · intro holder claim member
    obtain ⟨different, wasHeld⟩ | ⟨rfl, _, isOwn⟩ := cases holder claim member
    · rw [stageOf claim different]
      exact claimed.running holder claim wasHeld
    · rw [changed, Function.update_self]
      exact own isOwn
  · intro holder other claim member same
    obtain ⟨different, wasHeld⟩ | ⟨isName, isThread, _⟩ := cases holder claim member
    · obtain ⟨_, alsoHeld⟩ | ⟨isName, _, _⟩ := cases other claim same
      · exact claimed.apart holder other claim wasHeld alsoHeld
      · exact absurd isName different
    · obtain ⟨different, _⟩ | ⟨_, alsoThread, _⟩ := cases other claim same
      · exact absurd isName different
      · exact isThread.trans alsoThread.symm
  · intro holder
    by_cases isThread : holder = thread
    · subst isThread
      rw [Function.update_self]
      exact once
    · rw [Function.update_of_ne isThread]
      exact claimed.once holder

/-- A thread claims a package that nobody has touched. -/
theorem claim (claimed : ClaimedOnce machine hands) (holding : hands thread = rest)
    (untouched : machine.gate.stage name = .untouched)
    (changed : later.gate.stage = Function.update machine.gate.stage name .running) :
    machine.KeepsOutcomes later ∧
      ClaimedOnce later (Function.update hands thread (name :: rest)) := by
  have unclaimed : ∀ holder, name ∉ hands holder := by
    intro holder member
    cases untouched.symm.trans (claimed.running holder name member)
  refine claimed.turn ?_ (fun other _ => unclaimed other) changed ?_ ?_ fun _ => rfl
  · intro outcome settled
    cases untouched.symm.trans settled
  · intro claim member different
    rw [holding]
    exact (List.mem_cons.mp member).resolve_left different
  · rw [← holding]
    exact List.nodup_cons.mpr ⟨unclaimed thread, claimed.once thread⟩

/-- A thread gives up the claim that it has made last. -/
theorem release (claimed : ClaimedOnce machine hands) (holding : hands thread = name :: rest)
    (changed : later.gate.stage = Function.update machine.gate.stage name stage) :
    machine.KeepsOutcomes later ∧ ClaimedOnce later (Function.update hands thread rest) := by
  have isHeld : name ∈ hands thread := by
    rw [holding]
    exact List.mem_cons_self
  have once := claimed.once thread
  rw [holding, List.nodup_cons] at once
  refine claimed.turn ?_ ?_ changed ?_ once.2 fun never => absurd never once.1
  · intro outcome settled
    cases (claimed.running thread name isHeld).symm.trans settled
  · intro other different member
    exact different (claimed.apart other thread name member isHeld)
  · intro claim member _
    rw [holding]
    exact List.mem_cons_of_mem _ member

end ClaimedOnce

/-! ## Steps that leave the stages alone -/

section Steps

variable {thread : Thread} {token rest : List String}

omit [DecidableEq Thread] in
theorem Discipline.keepingOutcomes_toleratesMild (thread : Thread) (token : List String) :
    (keepingOutcomes Thread).ToleratesMild thread token where
  tolerates := fun _ _ _ fits _ mild => ClaimedOnce.of_same fits (by rw [mild.gate])
  excuses := fun _ _ _ _ => trivial

omit [DecidableEq Thread] in
theorem Discipline.keepingOutcomes_toleratesTasks (thread : Thread) (token : List String) :
    (keepingOutcomes Thread).ToleratesTasks thread token where
  starts := fun machine _ task fits _ =>
    ClaimedOnce.of_same fits (by rw [(machine.startTask_spares task).2])
  ends := fun _ _ _ _ _ fits _ => ClaimedOnce.of_same fits rfl

theorem Discipline.keepingOutcomes_storesStay (thread : Thread) (token : List String) :
    (keepingOutcomes Thread).StoresStay thread token :=
  fun slot value => storeGlobal_stays slot value fun _ _ _ fits _ _ => ClaimedOnce.of_same fits rfl

/-- A change that leaves the stages alone keeps what is in hand. -/
theorem Process.keepingOutcomes_modify {update : Machine → Machine}
    (same : ∀ machine : Machine, (update machine).gate.stage = machine.gate.stage) :
    (modify update).Stays (.keepingOutcomes Thread) thread token fun _ => True :=
  stays_modify (fun machine _ fits _ => ClaimedOnce.of_same fits (same machine)) trivial

theorem resolvePending_keepsOutcomes (package : Package) :
    (resolvePending package).Stays (.keepingOutcomes Thread) thread token fun _ => True := by
  have tolerance := Discipline.keepingOutcomes_toleratesMild thread token
  have taken : (Effect.atomically (Machine.takePending package.name)).Stays
      (.keepingOutcomes Thread) thread token fun _ => True := by
    refine Effect.stays_work (Process.stays_atomically fun machine hands fits _ => ?_)
    obtain ⟨permitted, fitsAfter⟩ := ClaimedOnce.of_same fits
      (show (machine.takePending package.name).2.gate.stage = machine.gate.stage from rfl)
    exact ⟨permitted, fitsAfter, trivial⟩
  unfold resolvePending
  refine taken.bind fun waiting _ => ?_
  refine (Effect.tolerated_read _).bind fun constants _ => ?_
  split
  · next values =>
    exact Effect.tolerated_modify tolerance fun machine => machine.mild_resolveConstants values
  · refine Effect.Stays.bind (Effect.stays_work (Process.keepingOutcomes_modify fun _ => rfl))
      fun _ _ => Effect.stays_fail _

end Steps

/-! ## Gates -/

/-- The packages that a thread has claimed that had claimed some others before a passage. -/
def GatePhase.claimed (phase : GatePhase) (name : String) (rest : List String) : List String :=
  if phase.claims then name :: rest else rest

namespace Station

variable {station : Station} {thread : Thread} {rest token : List String} {name : String}
  {caller : ContextId} {package : Package}

section Claiming

variable {Token : Type} {discipline : Discipline Thread Machine Token} (tokenOf : Bool → Token)
  (same : ∀ machine gate hands claims, discipline.fits machine hands →
      hands thread = tokenOf claims → gate.stage = machine.gate.stage →
        discipline.permits machine { machine with gate := gate } ∧
          discipline.fits { machine with gate := gate } hands)
  (claims : ∀ machine gate hands, discipline.fits machine hands → hands thread = tokenOf false →
      machine.gate.stage name = .untouched →
        gate.stage = Function.update machine.gate.stage name .running →
          discipline.permits machine { machine with gate := gate } ∧
            discipline.fits { machine with gate := gate }
              (Function.update hands thread (tokenOf true)))
  (excuses : ∀ machine hands, discipline.excuses machine hands thread)

include same claims excuses

/-- A passage exchanges the token when it claims the package, and stays with it otherwise. -/
theorem advancePhases_claiming (bound : Nat) (phase : GatePhase) :
    (station.advancePhases name caller bound phase).Follows discipline thread
      (tokenOf phase.claims) fun last token => token = tokenOf last.claims := by
  induction bound generalizing phase with
  | zero => exact rfl
  | succ bound inductionHypothesis =>
    cases answered : phase.answer? with
    | some answer =>
      cases phase <;> cases answered
      exact rfl
    | none =>
      rw [advancePhases_succ station name caller bound answered]
      intro machine hands fits holding
      refine ⟨fun isReady => ?_, fun _ => excuses machine hands⟩
      beta_reduce
      generalize (fun context : ContextId =>
        ((machine.arena Machine.ownArena).ancestry caller).contains context) = descends
      obtain ⟨next, gate, turn⟩ : ∃ next gate,
          machine.gate.advance station.thread name descends phase = (next, gate) :=
        ⟨_, _, rfl⟩
      rw [turn]
      dsimp only
      obtain ⟨sameStage, sameClaims⟩ | ⟨untouched, running, hadNone, nowClaims⟩ :=
        Gate.stage_advance_cases isReady turn
      · obtain ⟨permitted, fitsAfter⟩ := same machine gate hands _ fits holding sameStage
        refine ⟨permitted, tokenOf next.claims, ?_, inductionHypothesis next⟩
        rw [sameClaims, ← holding, Function.update_eq_self]
        exact fitsAfter
      · rw [hadNone] at holding
        obtain ⟨permitted, fitsAfter⟩ := claims machine gate hands fits holding untouched running
        refine ⟨permitted, tokenOf next.claims, ?_, inductionHypothesis next⟩
        rw [nowClaims]
        exact fitsAfter

theorem passGate_claiming :
    (station.passGate name caller).Follows discipline thread (tokenOf false)
      fun last token => ∃ answer, last = .answered answer ∧ token = tokenOf last.claims := by
  have passed : (station.passGate name caller).Follows discipline thread (tokenOf false)
      fun last token => token = tokenOf last.claims := by
    refine Process.Follows.bind
      (advancePhases_claiming tokenOf same claims excuses 6 .lookForMark) ?_
    rintro middle _ rfl
    exact advancePhases_claiming tokenOf same claims excuses _ middle
  refine (passed.endsOnly (station.passGate_endsOnly name caller)).weaken ?_
  rintro _ token ⟨⟨answer, rfl⟩, isToken⟩
  exact ⟨answer, rfl, isToken⟩

end Claiming

theorem passGate_keepsOutcomes :
    (station.passGate name caller).Follows (.keepingOutcomes Thread) thread rest
      fun last token => ∃ answer, last = .answered answer ∧ token = last.claimed name rest :=
  passGate_claiming (fun claims => if claims then name :: rest else rest)
    (fun _ _ _ _ fits _ sameStage => ClaimedOnce.of_same fits sameStage)
    (fun _ _ _ fits holding untouched running => ClaimedOnce.claim fits holding untouched running)
    (fun _ _ => trivial)

theorem runInit_keepsOutcomes {parent : Context}
    (tasks : station.TasksStay (.keepingOutcomes Thread) thread token) :
    (station.runInit package parent).run.Stays (.keepingOutcomes Thread) thread token
      fun _ => True := by
  have tolerance := Discipline.keepingOutcomes_toleratesMild thread token
  cases isInit : package.init with
  | none =>
    unfold runInit
    rw [isInit]
    exact (resolvePending_keepsOutcomes package).run.weaken fun _ _ => trivial
  | some unit =>
    rw [runInit_eq isInit]
    have opened : (station.openInit package parent).Stays (.keepingOutcomes Thread) thread token
        fun _ => True := by
      refine Process.Stays.bind (Process.keepingOutcomes_modify fun _ => rfl) fun _ _ => ?_
      refine Process.Stays.bind (Process.tolerated_atomically tolerance fun machine =>
        machine.mild_inArena _ fun arena => arena.register_ages _) fun id _ => ?_
      refine Process.Stays.bind (Process.keepingOutcomes_modify fun _ => rfl) fun _ _ => ?_
      exact Process.stays_done trivial
    have called : ∀ context, ((station.callUnit unit).attempt.runOn context).Stays
        (.keepingOutcomes Thread) thread token fun _ => True :=
      fun context => (callRegisters_stays tolerance tasks unit [] [] context).attempt.run.weaken
        fun _ _ => trivial
    have finished : ∀ called, (station.finishInit package called).Stays (.keepingOutcomes Thread)
        thread token fun _ => True := by
      intro called
      unfold finishInit
      refine Effect.Stays.bind (Effect.stays_mk fun _ _ => trivial) fun invoked _ => ?_
      refine Effect.Stays.bind (Effect.stays_work (Process.keepingOutcomes_modify fun _ => rfl))
        fun _ _ => ?_
      refine Effect.Stays.bind (Effect.stays_ofExcept fun _ _ => trivial) fun _ _ => ?_
      exact resolvePending_keepsOutcomes package
    refine opened.bind fun context _ => (called context).bind fun outcome _ => ?_
    exact ((finished outcome).followedBy (release_stays tolerance context)).run.weaken
      fun _ _ => trivial

theorem closeInit_keepsOutcomes (outcome : Except Interruption Unit) :
    (station.closeInit package outcome).Follows (.keepingOutcomes Thread) thread
      (package.name :: rest) fun _ last => last = rest := by
  have written : ∀ cell, (Process.modify fun machine : Machine =>
        { machine with gate := machine.gate.setCell package.name cell }).Follows
      (.keepingOutcomes Thread) thread (package.name :: rest) fun _ last => last = rest := by
    intro cell
    refine Process.follows_modify fun machine hands fits holding => ?_
    obtain ⟨permitted, fitsAfter⟩ := ClaimedOnce.release fits holding
      (show ({ machine with gate := machine.gate.setCell package.name cell } : Machine).gate.stage =
        _ from Gate.stage_setCell machine.gate package.name cell)
    exact ⟨permitted, rest, fitsAfter, rfl⟩
  have settled : ∀ outcome, (station.settleInit package outcome).run.Follows
      (.keepingOutcomes Thread) thread (package.name :: rest) fun _ last => last = rest := by
    intro outcome
    rw [settleInit_eq]
    refine Process.Follows.bind (written _) ?_
    rintro _ _ rfl
    refine Process.Follows.bind (Process.keepingOutcomes_modify fun _ => rfl) ?_
    rintro _ _ ⟨rfl, _⟩
    exact rfl
  have givenBack : ∀ interruption : Interruption, (Process.bind (Process.modify fun machine : Machine =>
        { machine with gate := machine.gate.setCell package.name .untouched }) fun _ =>
          .done (.error interruption : Except Interruption Unit)).Follows (.keepingOutcomes Thread)
      thread (package.name :: rest) fun _ last => last = rest := by
    intro interruption
    refine Process.Follows.bind (written _) ?_
    rintro _ _ rfl
    exact rfl
  rcases outcome with (_ | _ | _) | _
  · exact settled _
  · exact givenBack _
  · exact givenBack _
  · exact settled _

/-- A thread that passes a gate has claimed afterwards what it had claimed before. -/
theorem gates_keepOutcomes
    (tasks : ∀ token, station.TasksStay (.keepingOutcomes Thread) thread token) :
    station.GatesStay (.keepingOutcomes Thread) thread token := by
  intro name package isFound caller
  have passed : (station.ensureInitialized package caller).run.Follows (.keepingOutcomes Thread)
      thread token fun _ last => last = token := by
    rw [ensureInitialized_eq]
    refine Process.Follows.bind passGate_keepsOutcomes ?_
    rintro _ _ ⟨answer, rfl, rfl⟩
    cases answer with
    | outcome outcome => cases outcome <;> exact rfl
    | claimed =>
      refine Process.Follows.bind (runInit_keepsOutcomes (tasks _)) ?_
      rintro outcome _ ⟨rfl, _⟩
      exact closeInit_keepsOutcomes outcome
  refine Process.Follows.weaken passed ?_
  rintro (_ | _) _ rfl
  · exact rfl
  · exact ⟨rfl, trivial⟩

end Station

end WorkerMachine
