import WorkerMachine.Proofs.Clearance.Passing
/-!
# Inits and clearance

A context that has taken over the cell of a package runs the init: it opens a context for the init
unit, which is marked, calls the unit and is released, and then settles the outcome.  The outcome is
always settled, since nothing but a fault ever interrupts an init.
-/

namespace WorkerMachine

open Clearance

/-- The units of a package belong to it, and have been built. -/
def Package.Sound (package : Package) : Prop :=
  ∀ unit, (package.init = some unit ∨ ∃ name, package.functions.get? name = some unit) →
    unit.package = package.name ∧ unit.Sound

variable {thread : ThreadId} {activity : Activity} {rest token : Hand} {package : Package}
  {caller context : ContextId} {station : Station}

/-! ## Constants -/

theorem Machine.inert_resolveConstants (values : List (Nat × Constant)) (machine : Machine) :
    Inert machine (machine.resolveConstants values) := by
  unfold resolveConstants
  induction values generalizing machine with
  | nil =>
      exact ⟨rfl, rfl, rfl⟩
  | cons value rest inductionHypothesis =>
      rw [List.foldl_cons]
      have first : Inert machine (machine.resolveConstant value.1 value.2) := by
        unfold resolveConstant
        split
        · exact ⟨rfl, rfl, rfl⟩
        · exact ⟨rfl, rfl, rfl⟩
      have others := inductionHypothesis (machine.resolveConstant value.1 value.2)
      exact ⟨others.scene.trans first.scene, others.history.trans first.history,
        others.waitingTasks.trans first.waitingTasks⟩

theorem resolvePending_follows_clearing (package : Package) :
    (resolvePending package).Follows .clearing thread token (fun _ last => last = token)
      fun interruption last => (∃ fault, interruption = .fault fault) ∧ last = token := by
  unfold resolvePending
  have taken : (Effect.atomically (Machine.takePending package.name)).Follows .clearing thread token
      (fun _ last => last = token)
      fun interruption last => (∃ fault, interruption = .fault fault) ∧ last = token :=
    Effect.follows_exchanging fun machine _ _ =>
      have inert : Inert machine (machine.takePending package.name).2 := ⟨rfl, rfl, rfl⟩
      ⟨inert.permits, token, inert.exchanges, rfl⟩
  have looked : ∀ waiting, (Effect.read fun machine =>
        readConstants package machine.globals waiting).Follows .clearing thread token
      (fun _ last => last = token)
      fun interruption last => (∃ fault, interruption = .fault fault) ∧ last = token :=
    fun _ => Effect.follows_read fun _ _ _ _ => rfl
  refine taken.bind ?_
  rintro waiting _ rfl
  refine (looked waiting).bind ?_
  rintro constants _ rfl
  split
  · next values =>
    exact Effect.inert_modify_follows (Machine.inert_resolveConstants values)
  · refine Effect.Follows.bind (Effect.inert_modify_follows fun _ => ⟨rfl, rfl, rfl⟩) ?_
    rintro _ _ rfl
    exact Effect.follows_fail ⟨⟨_, rfl⟩, rfl⟩

/-! ## The context of an init -/

def initActivity (thread : ThreadId) (caller : ContextId) (package : String) : Activity :=
  ⟨some thread, .init package, some caller, .running, .nothing⟩

/-- The context of an init is opened below the context that initializes the package. -/
theorem openChild_follows_clearing {parent : Context} (isOwn : parent.arena = Machine.ownArena)
    {name : String} {state : ContextState} {upset : Interruption → Hand → Prop} :
    parent.openChild.Follows .clearing thread
      ((parent.id, activity.being state (.initializing name none false)) :: rest)
      (fun context last =>
        context = .root context.id (some parent.id) parent.arena parent.properties ∧
        last = (context.id, initActivity thread parent.id name) ::
          (parent.id, activity.being state (.initializing name (some context.id) false)) :: rest)
      upset := by
  unfold Context.openChild
  have registered : (registerContext parent.arena ⟨some parent.id, .running,
        Arena.rootLabel⟩).Follows .clearing thread
      ((parent.id, activity.being state (.initializing name none false)) :: rest)
      (fun id last => last = (id, initActivity thread parent.id name) ::
        (parent.id, activity.being state (.initializing name (some id) false)) :: rest)
      upset := by
    refine Effect.follows_exchanging fun machine activities _ => ?_
    unfold Machine.inArena
    rw [isOwn]
    refine ⟨machine.permits_setArena _, _, ?_, rfl⟩
    have announced : Exchanges machine machine thread
        ((parent.id, activity.being state (.initializing name none false)) :: rest)
        ((parent.id, activity.being state
          (.initializing name (some machine.scene.nextId) false)) :: rest) := by
      refine exchanges_head rfl id fun activities known => ?_
      exact known.1.proceed (known.2 _ List.mem_cons_self) rfl (fun _ never => by cases never) id
    refine announced.trans ?_
    refine @exchanges_enter thread _ machine (initActivity thread parent.id name) _ rfl ?_ rfl rfl ?_
    · intro leaving
      cases leaving
    · intro activities known above isParent
      cases isParent
      exact ⟨_, known.2 _ List.mem_cons_self, rfl, rfl⟩
  refine registered.bind ?_
  rintro id _ rfl
  exact ⟨rfl, rfl⟩

theorem Machine.scene_callInit (machine : Machine) (name : String) (mark : InitMark) :
    (machine.callInit name mark).scene =
      { machine.scene with
        mark := Function.update machine.scene.mark name (some mark)
        inits := (name, mark.context) :: machine.scene.inits } := by
  have marks : (machine.gate.marks.insert name mark).get? =
      Function.update machine.gate.marks.get? name (some mark) := by
    funext asked
    rw [Table.get?_insert]
    by_cases same : name = asked
    · subst same
      rw [if_pos rfl, Function.update_self]
    · rw [if_neg same, Function.update_of_ne (Ne.symm same)]
  unfold callInit Gate.mark scene
  dsimp only [record]
  rw [marks]
  rfl

theorem Machine.scene_unmark (machine : Machine) (name : String) :
    { machine with gate := machine.gate.unmark name }.scene =
      { machine.scene with mark := Function.update machine.scene.mark name none } := by
  have marks : (machine.gate.marks.erase name).get? =
      Function.update machine.gate.marks.get? name none := by
    funext asked
    rw [Table.get?_erase]
    by_cases same : name = asked
    · subst same
      rw [if_pos rfl, Function.update_self]
    · rw [if_neg same, Function.update_of_ne (Ne.symm same)]
  unfold Gate.unmark scene
  dsimp only
  rw [marks]
  rfl

/-- The context of an init is marked, and the call of the init unit is noted. -/
theorem callInit_follows {state : ContextState} {name : String}
    {upset : Interruption → Hand → Prop} :
    (Effect.modify (Machine.callInit name ⟨context, thread⟩)).Follows .clearing thread
      ((context, initActivity thread caller name) ::
        (caller, activity.being state (.initializing name (some context) false)) :: rest)
      (fun _ last =>
        last = (context, (initActivity thread caller name).being .running (.cleared name)) ::
          (caller, activity.being state (.initializing name (some context) true)) :: rest)
      upset := by
  refine Effect.follows_work (Process.follows_exchanging_modify fun machine activities known => ?_)
  have uncalled : machine.scene.initsOf name = [] :=
    (known.1.holds caller _ (known.2 _ (List.mem_cons_of_mem _ List.mem_cons_self))).2 rfl
  have called : Exchanges machine machine thread
      ((context, initActivity thread caller name) ::
        (caller, activity.being state (.initializing name (some context) false)) :: rest)
      ((context, initActivity thread caller name) ::
        (caller, activity.being state (.initializing name (some context) true)) :: rest) := by
    refine exchanges_second rfl id fun activities known => ?_
    exact known.1.proceed (known.2 _ (List.mem_cons_of_mem _ List.mem_cons_self)) rfl
      (fun _ same => .inl same) nofun
  refine ⟨⟨fun _ _ => id, [.initCalled name context], rfl, ?_⟩,
    called.trans (exchanges_head rfl id fun activities known => ?_)⟩
  · intro task started
    cases started with
    | tail _ never => cases never
  · rw [Machine.scene_callInit]
    exact known.1.mark (known.2 _ List.mem_cons_self) rfl rfl
      (known.2 _ (List.mem_cons_of_mem _ List.mem_cons_self)) rfl uncalled thread

theorem unmark_follows {state : ContextState} {name : String} {upset : Interruption → Hand → Prop} :
    (alterGate fun gate => gate.unmark name).Follows .clearing thread
      ((context, (initActivity thread caller name).being state (.cleared name)) :: rest)
      (fun _ last => last = (context, (initActivity thread caller name).being state .nothing) :: rest)
      upset := by
  refine Effect.follows_work (Process.follows_exchanging_modify fun machine activities known => ?_)
  refine ⟨Machine.permits_of_quiet rfl fun _ _ => id,
    exchanges_head rfl id fun activities known => ?_⟩
  rw [Machine.scene_unmark]
  exact known.1.unmark (known.2 _ List.mem_cons_self) rfl rfl

theorem release_init_follows {context : Context} (isOwn : context.arena = Machine.ownArena)
    {state : ContextState} {name : String} {called : Bool} :
    context.release.Follows .clearing thread
      ((context.id, initActivity thread caller name) ::
        (caller, activity.being state (.initializing name (some context.id) called)) :: rest)
      fun _ last =>
        last = (caller, activity.being state (.initializing name none called)) :: rest := by
  refine Process.follows_exchanging_modify fun machine activities _ => ?_
  unfold Machine.alterArena
  rw [isOwn]
  have released : Exchanges machine
      (machine.setArena Machine.ownArena ((machine.arena Machine.ownArena).release context.id))
      thread
      ((context.id, initActivity thread caller name) ::
        (caller, activity.being state (.initializing name (some context.id) called)) :: rest)
      ((caller, activity.being state (.initializing name (some context.id) called)) :: rest) := by
    refine exchanges_release rfl fun activities known => ?_
    rw [Machine.scene_setArena, Arena.standing?_release]
    have isInit := known.2 (context.id, initActivity thread caller name) List.mem_cons_self
    exact known.1.leave isInit rfl
  refine ⟨machine.permits_setArena _,
    released.trans (exchanges_head rfl id fun activities known => ?_)⟩
  have gone : activities context.id = none := by
    refine Option.eq_none_iff_forall_not_mem.mpr fun its isIts => ?_
    have recorded := known.1.tree.recorded context.id its isIts
    rw [Machine.scene_setArena, Arena.standing?_release] at recorded
    dsimp only at recorded
    rw [Function.update_self] at recorded
    cases recorded
  refine @Sound.proceed _ _ _ _ known.1 (known.2 _ List.mem_cons_self) name _ none called called rfl
    ?_ id
  rintro _ ⟨⟩
  exact .inr gone

/-- What a context is after when an init has come to an outcome. -/
def outcomePursuit (name : String) : Except Fault Unit → Pursuit
  | .ok () => .cleared name
  | .error _ => .nothing

/-- The outcome of an init is settled, and clears the context that ran the init if it succeeded. -/
theorem settleInit_follows (outcome : Except Fault Unit) (mayClaim : activity.role.MayClaim)
    {state : ContextState} {name : String} {called : Bool} {upset : Interruption → Hand → Prop} :
    (alterGate fun gate => gate.setCell name (.settled outcome)).Follows .clearing thread
      ((caller, activity.being state (.initializing name none called)) :: rest)
      (fun _ last => last = (caller, activity.being state (outcomePursuit name outcome)) :: rest)
      upset := by
  refine Effect.follows_work (Process.follows_exchanging_modify fun machine activities known => ?_)
  have running : machine.scene.stage name = .running :=
    (known.1.holds caller _ (known.2 _ List.mem_cons_self)).1
  have scene : { machine with gate := machine.gate.setCell name (.settled outcome) }.scene =
      { machine.scene with
        stage := Function.update machine.scene.stage name (.settled outcome) } := by
    unfold Machine.scene
    dsimp only
    rw [Gate.stage_setCell]
    rfl
  refine ⟨Machine.permits_of_quiet rfl fun asked its isSettled => ?_, ?_⟩
  · rw [scene]
    refine (Function.update_of_ne ?_ _ _).trans isSettled
    rintro rfl
    rw [running] at isSettled
    cases isSettled
  · have ended : Exchanges machine
        { machine with gate := machine.gate.setCell name (.settled outcome) } thread
        ((caller, activity.being state (.initializing name none called)) :: rest)
        ((caller, activity.being state .nothing) :: rest) := by
      refine exchanges_head rfl id fun activities known => ?_
      rw [scene]
      exact known.1.settle (known.2 _ List.mem_cons_self) mayClaim.2 rfl outcome
    refine ended.trans (exchanges_head rfl id fun activities known => ?_)
    refine known.1.pursue (known.2 _ List.mem_cons_self) mayClaim.1 id ?_
      (fun package ofInit => absurd ofInit (mayClaim.2 package)) ?_
    · cases outcome with
      | ok _ => exact id
      | error _ => exact id
    · cases outcome with
      | ok _ =>
          left
          rw [scene]
          exact Function.update_self ..
      | error _ => trivial

/-! ## Whole inits -/

namespace Station

variable (tasks : station.RunsTasks) (named : station.policy.NamesThreads)

include tasks named

/-- The body of an init is carried out in a context that is marked meanwhile, and only a fault
interrupts the init. -/
theorem initUnit_follows_clearing {unit : Callable} (ofPackage : unit.package = package.name)
    (sound : unit.Sound) {context : Context} (isOwn : context.arena = Machine.ownArena)
    {state : ContextState} :
    Effect.Follows .clearing station.thread (do
        Effect.modify (Machine.callInit package.name ⟨context.id, station.thread⟩)
        let (outcome, after) ← ((station.callUnit unit).attempt.runOn context : Work _)
        let invoked ← ExceptT.mk (pure outcome)
        alterGate fun gate => gate.unmark package.name
        Effect.ofExcept (initOutcome station.traceStyle package.name after.error invoked)
        resolvePending package)
      ((context.id, initActivity station.thread caller package.name) ::
        (caller, activity.being state (.initializing package.name (some context.id) false)) :: rest)
      (fun _ last => last = (context.id, initActivity station.thread caller package.name) ::
        (caller, activity.being state (.initializing package.name (some context.id) true)) :: rest)
      (fun interruption last => (∃ fault, interruption = .fault fault) ∧
        last = (context.id, initActivity station.thread caller package.name) ::
          (caller, activity.being state (.initializing package.name (some context.id) true)) ::
            rest) := by
  refine Effect.Follows.bind callInit_follows ?_
  rintro _ _ rfl
  have attempted : (station.callUnit unit).attempt.Follows .clearing station.thread context
      ((context.id, (initActivity station.thread caller package.name).being .running
          (.cleared package.name)) ::
        (caller, activity.being state (.initializing package.name (some context.id) true)) :: rest)
      (fun _ _ last => last =
        (context.id, (initActivity station.thread caller package.name).being .running
            (.cleared package.name)) ::
          (caller, activity.being state (.initializing package.name (some context.id) true)) :: rest)
      fun _ _ _ => False := by
    have called := @callUnit_follows (initActivity station.thread caller package.name)
      ((caller, activity.being state (.initializing package.name (some context.id) true)) :: rest)
      station tasks named unit sound context isOwn
    rw [ofPackage] at called
    refine Routine.Follows.attempt (called.weaken (fun _ _ _ reached => reached.2) ?_)
    rintro _ _ _ ⟨⟨fault, rfl⟩, _, isLast⟩
    exact isLast
  refine Effect.Follows.bind (Effect.follows_work attempted) ?_
  rintro ⟨outcome, after⟩ _ reached
  cases outcome with
  | error interruption =>
      exact reached.elim
  | ok invoked =>
      cases reached
      have unmarked : (alterGate fun gate => gate.unmark package.name).Follows .clearing
          station.thread
          ((context.id, (initActivity station.thread caller package.name).being .running
              (.cleared package.name)) ::
            (caller, activity.being state (.initializing package.name (some context.id) true)) ::
              rest)
          (fun _ last => last = (context.id, initActivity station.thread caller package.name) ::
            (caller, activity.being state (.initializing package.name (some context.id) true)) ::
              rest)
          (fun interruption last => (∃ fault, interruption = .fault fault) ∧
            last = (context.id, initActivity station.thread caller package.name) ::
              (caller, activity.being state (.initializing package.name (some context.id) true)) ::
                rest) :=
        unmark_follows
      refine unmarked.bind ?_
      rintro _ _ rfl
      have judged : ∀ hand : Hand, (Effect.ofExcept (initOutcome station.traceStyle package.name
            after.error invoked)).Follows .clearing station.thread hand (fun _ last => last = hand)
          fun interruption last => (∃ fault, interruption = .fault fault) ∧ last = hand :=
        fun hand => Effect.follows_ofExcept (fun _ _ => rfl) fun fault _ => ⟨⟨fault, rfl⟩, rfl⟩
      refine (judged _).bind ?_
      rintro _ _ rfl
      exact resolvePending_follows_clearing package

/-- An init ends with its cell still to be settled. -/
theorem runInit_follows_clearing {parent : Context} (isOwn : parent.arena = Machine.ownArena)
    (sound : package.Sound) {state : ContextState} :
    (station.runInit package parent).Follows .clearing station.thread
      ((parent.id, activity.being state (.initializing package.name none false)) :: rest)
      (fun _ last => ∃ called,
        last = (parent.id, activity.being state (.initializing package.name none called)) :: rest)
      (fun interruption last => (∃ fault, interruption = .fault fault) ∧ ∃ called,
        last = (parent.id, activity.being state (.initializing package.name none called)) ::
          rest) := by
  unfold runInit
  split
  · refine (resolvePending_follows_clearing package).weaken ?_ ?_
    · rintro _ _ rfl
      exact ⟨false, rfl⟩
    · rintro _ _ ⟨isFault, rfl⟩
      exact ⟨isFault, false, rfl⟩
  · next unit isInit =>
    obtain ⟨ofPackage, unitSound⟩ := sound unit (.inl isInit)
    refine Effect.Follows.bind (tally_follows _) ?_
    rintro _ _ rfl
    refine Effect.Follows.bind (openChild_follows_clearing isOwn) ?_
    rintro context _ ⟨isRoot, rfl⟩
    have contextOwn : context.arena = Machine.ownArena := by
      rw [isRoot]
      exact isOwn
    refine Effect.Follows.followedBy
      (initUnit_follows_clearing tasks named ofPackage unitSound contextOwn) ?_
    intro outcome token reached
    cases outcome with
    | ok _ =>
        cases reached
        refine (release_init_follows contextOwn).weaken ?_
        rintro _ _ rfl
        exact ⟨true, rfl⟩
    | error interruption =>
        obtain ⟨isFault, rfl⟩ := reached
        refine (release_init_follows contextOwn).weaken ?_
        rintro _ _ rfl
        exact ⟨isFault, true, rfl⟩

theorem ensureInitialized_follows_clearing {parent : Context}
    (isOwn : parent.arena = Machine.ownArena) (sound : package.Sound)
    (mayClaim : activity.role.MayClaim) {state : ContextState} :
    (station.ensureInitialized package parent).Follows .clearing station.thread
      ((parent.id, activity.being state .nothing) :: rest)
      (fun _ last => last = (parent.id, activity.being state (.cleared package.name)) :: rest)
      (fun _ last => last = (parent.id, activity.being state .nothing) :: rest) := by
  unfold ensureInitialized
  refine Effect.Follows.bind (Effect.follows_work (passGate_follows_clearing mayClaim)) ?_
  rintro _ _ ⟨answer, rfl, rfl⟩
  cases answer with
  | outcome outcome =>
      cases outcome with
      | ok _ => exact Effect.follows_ofExcept (fun _ _ => rfl) nofun
      | error fault => exact Effect.follows_ofExcept nofun fun _ _ => rfl
  | claimed =>
      have attempted : (station.runInit package parent).attempt.Follows .clearing station.thread
          ((parent.id, activity.being state (.initializing package.name none false)) :: rest)
          (fun _ last => ∃ called,
            last = (parent.id, activity.being state (.initializing package.name none called)) ::
              rest) fun _ _ => False := by
        refine Effect.Follows.attempt ((runInit_follows_clearing tasks named isOwn sound).weaken
          (fun _ _ => id) ?_)
        rintro _ _ ⟨⟨fault, rfl⟩, reached⟩
        exact reached
      refine Effect.Follows.bind attempted.orElseRun_of_never ?_
      rintro outcome _ ⟨called, rfl⟩
      refine Effect.Follows.bind (settleInit_follows outcome mayClaim) ?_
      rintro _ _ rfl
      refine Effect.Follows.bind (Effect.inert_modify_follows fun _ => ⟨rfl, rfl, rfl⟩) ?_
      rintro _ _ rfl
      cases outcome with
      | ok _ => exact Effect.follows_ofExcept (fun _ _ => rfl) nofun
      | error fault => exact Effect.follows_ofExcept nofun fun _ _ => rfl

end Station

end WorkerMachine
