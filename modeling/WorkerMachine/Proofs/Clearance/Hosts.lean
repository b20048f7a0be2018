import WorkerMachine.Host.Globals
import WorkerMachine.Machine.Initialization
import WorkerMachine.Proofs.Clearance.Workers
/-!
# Hosts and clearance

A host calls functions by name, one after the other, each from a root of its own.  It has nothing in
hand between two calls, and at the beginning nobody has.
-/

namespace WorkerMachine

open Clearance

variable {activity : Activity} {rest : Hand} {station : Station}

/-! ## Calls by name -/

def rootActivity (thread : ThreadId) : Activity :=
  ⟨some thread, .root, none, .running, .nothing⟩

theorem openRoot_follows {thread : ThreadId} {properties : PropertiesKey}
    {upset : Interruption → Hand → Prop} :
    (openRoot Machine.ownArena properties).Follows .clearing thread rest
      (fun root last => root.arena = Machine.ownArena ∧
        last = (root.id, rootActivity thread) :: rest) upset := by
  have registered : (registerContext Machine.ownArena ⟨none, .running, Arena.rootLabel⟩).Follows
      .clearing thread rest (fun id last => last = (id, rootActivity thread) :: rest) upset := by
    refine Effect.follows_exchanging fun machine activities _ => ?_
    refine ⟨machine.permits_setArena _, _, ?_, rfl⟩
    refine @exchanges_enter thread rest machine (rootActivity thread) _ rfl ?_ rfl rfl ?_
    · intro leaving
      cases leaving
    · intro activities known parent isParent
      cases isParent
  unfold openRoot
  refine registered.bind ?_
  rintro id _ rfl
  exact ⟨rfl, rfl⟩

namespace Station

variable (tasks : station.RunsTasks) (named : station.policy.NamesThreads)
  (sound : station.program.Sound)

include tasks named sound

theorem callNamedIn_follows {parent : Context} (isOwn : parent.arena = Machine.ownArena)
    (mayClaim : activity.role.MayClaim) (package function : String) (arguments : List Value) :
    (station.callNamedIn parent package function arguments).Follows .clearing station.thread
      ((parent.id, activity.being .running .nothing) :: rest)
      (fun _ last => activity.Idle parent.id rest last)
      (fun _ last => activity.Idle parent.id rest last) := by
  have idle : activity.Idle parent.id rest ((parent.id, activity.being .running .nothing) :: rest) :=
    ⟨.nothing, id, rfl⟩
  have tried : ∀ {Answer : Type} {outcome : Except Fault Answer}, (Effect.ofExcept outcome).Follows
      .clearing station.thread ((parent.id, activity.being .running .nothing) :: rest)
      (fun answer last => outcome = .ok answer ∧
        last = (parent.id, activity.being .running .nothing) :: rest)
      fun _ last => activity.Idle parent.id rest last :=
    Effect.follows_ofExcept (fun _ isOk => ⟨isOk, rfl⟩) fun _ _ => idle
  unfold callNamedIn
  refine tried.bind ?_
  rintro found _ ⟨isFound, rfl⟩
  refine tried.bind ?_
  rintro unit _ ⟨isUnit, rfl⟩
  refine tried.bind ?_
  rintro _ _ ⟨_, rfl⟩
  have packageSound := (sound package found isFound).2
  obtain ⟨ofPackage, unitSound⟩ := packageSound.of_function isUnit
  refine Effect.Follows.bind ((ensureInitialized_follows_clearing tasks named isOwn packageSound
    mayClaim).weaken (fun _ _ => id) fun _ _ isLast => ⟨.nothing, id, isLast⟩) ?_
  rintro _ _ rfl
  rw [← ofPackage]
  exact (callValues_follows tasks named unitSound isOwn arguments).holding ⟨_, id, rfl⟩

/-- A call by name leaves nothing behind. -/
theorem callNamed_follows (package function : String) (arguments : List Value) :
    (station.callNamed package function arguments).Stays .clearing station.thread rest
      fun _ => True := by
  unfold callNamed
  refine Effect.Follows.bind openRoot_follows ?_
  rintro root _ ⟨isOwn, rfl⟩
  have mayClaim : (rootActivity station.thread).role.MayClaim := ⟨nofun, fun _ => nofun⟩
  have called := @callNamedIn_follows (rootActivity station.thread) rest station tasks named sound
    root isOwn mayClaim package function arguments
  refine Effect.Follows.followedBy called fun outcome hand reached => ?_
  have idle : (rootActivity station.thread).Idle root.id rest hand := by
    cases outcome with
    | ok _ => exact reached
    | error _ => exact reached
  obtain ⟨pursuit, isIdle, rfl⟩ := idle
  refine Process.Follows.of_exchanged ⟨_, _, _, rfl⟩ (fun _ => exchanges_idle mayClaim isIdle) ?_
  refine Process.Follows.weaken (Context.release_follows isOwn rfl) ?_
  rintro _ _ rfl
  cases outcome with
  | ok _ => exact ⟨rfl, trivial⟩
  | error _ => rfl

end Station

/-- A process of a host that makes calls by name one after the other, of which each may depend on what
those before it have come to. -/
inductive Station.CallsByName (station : Station) {Answer : Type} : Work Answer → Prop
  | ended (answer : Answer) : CallsByName station (.done answer)
  | called {follow : Except Interruption (List Value) → Work Answer}
      (package function : String) (arguments : List Value) :
      (∀ outcome, CallsByName station (follow outcome)) →
      CallsByName station ((station.callNamed package function arguments).run.bind follow)

theorem Station.CallsByName.follows {Answer : Type} {process : Work Answer}
    (calls : station.CallsByName process) (tasks : station.RunsTasks)
    (named : station.policy.NamesThreads) (sound : station.program.Sound) :
    process.Stays .clearing station.thread rest fun _ => True := by
  induction calls with
  | ended answer =>
      exact Process.stays_done trivial
  | called package function arguments _ inductionHypothesis =>
      exact (callNamed_follows tasks named sound package function arguments).run.bind
        fun outcome _ => inductionHypothesis outcome

/-! ## Fresh machines -/

structure Machine.Fresh (machine : Machine) : Prop where
  gate : machine.gate = {}
  history : machine.history = []
  queue : machine.queue = []
  spawned : machine.spawned = []

theorem Machine.Fresh.fits {machine : Machine} (fresh : machine.Fresh) :
    Discipline.clearing.fits machine fun _ => [] := by
  have noMark : ∀ package, machine.scene.mark package = none := by
    intro package
    change machine.gate.marks.get? package = none
    rw [fresh.gate]
    rfl
  have noInits : machine.scene.inits = [] := by
    change machine.history.filterMap Happening.initCall? = []
    rw [fresh.history]
    rfl
  have noInitsOf : ∀ package, machine.scene.initsOf package = [] := by
    intro package
    unfold Scene.initsOf
    rw [noInits]
    rfl
  have noTasks : machine.waitingTasks = [] := by
    unfold Machine.waitingTasks
    rw [fresh.spawned, fresh.queue]
    rfl
  have none {activity : Activity} {Result : Prop} (found : none = some activity) : Result := by
    cases found
  have tree : Tree machine.scene fun _ => .none :=
    ⟨fun _ _ => none, fun _ _ => none, fun _ _ _ => none, fun _ _ => none, fun _ _ => none,
      fun _ _ _ => none⟩
  refine ⟨fun _ => .none, ⟨tree, ?_, fun _ _ _ _ _ _ => none, fun _ _ => none⟩, ?_⟩
  · refine ⟨fun _ _ _ _ _ _ _ _ _ => none, ?_, fun _ _ _ => none, ?_, ?_, ?_, ?_⟩
    · intro package mark marked
      rw [noMark] at marked
      cases marked
    · intro package
      rw [noInitsOf]
      exact Nat.zero_le 1
    · exact fun package _ => noInitsOf package
    · intro package context member
      rw [noInits] at member
      cases member
    · intro package mark marked
      rw [noMark] at marked
      cases marked
  · rw [noTasks]
    refine ⟨?_, fun _ => List.nodup_nil, ?_, List.nodup_nil⟩
    · intro thread entry member
      cases member
    · intro task member
      cases member

theorem Machine.start_fresh (program : Program) (properties : Properties) :
    (Machine.start program properties).Fresh :=
  ⟨rfl, rfl, rfl, rfl⟩

namespace Host
variable {First Second : Type} {property : Session → Prop}

/-- Whatever a step of the host comes to, a property of the session stays true. -/
def Keeps {Answer : Type} (property : Session → Prop) (step : HostStep Answer) : Prop :=
  ∀ session, property session → property (StateT.run (ExceptT.run step) session).2

theorem Keeps.bind {step : HostStep First} {follow : First → HostStep Second}
    (first : Keeps property step) (second : ∀ answer, Keeps property (follow answer)) :
    Keeps property (step >>= follow) := by
  intro session holds
  have kept := first session holds
  rw [ExceptT.run_bind, StateT.run_bind]
  generalize StateT.run (ExceptT.run step) session = reached at kept ⊢
  obtain ⟨outcome, after⟩ := reached
  cases outcome with
  | ok answer => exact second answer after kept
  | error failure => exact kept

section Deferring

variable {kept : Machine → Prop}
  (spared : ∀ machine constant, kept machine → kept (machine.deferConstant constant))

include spared

theorem deferConstant_keeps (package name : String) :
    Keeps (fun session => kept session.machine) (deferConstant package name) := by
  have found {outcome : Except Fault Package} :
      Keeps (fun session => kept session.machine) (ofExcept outcome) := by
    cases outcome <;> exact fun _ holds => holds
  unfold deferConstant
  refine Keeps.bind (fun _ holds => holds) fun session => ?_
  refine Keeps.bind (fun _ holds => holds) fun _ => ?_
  refine Keeps.bind (fun _ holds => holds) fun program => ?_
  refine Keeps.bind found fun _ => ?_
  exact fun session holds => spared session.machine _ holds

theorem deferConstants_keeps (constants : List (String × String)) :
    Keeps (fun session => kept session.machine) (deferConstants constants) := by
  induction constants with
  | nil => exact fun _ holds => holds
  | cons constant rest inductionHypothesis =>
      exact (deferConstant_keeps spared _ _).bind fun _ => inductionHypothesis

end Deferring

end Host

/-- A session that has started is one that has deferred its constants, with an empty journal. -/
theorem Session.eq_of_start {setup : Setup} {interpreter : Interpreter} {properties : Properties}
    {constants : List (String × String)} {session : Session}
    (starts : Session.start setup interpreter properties constants = .ok session) :
    let fresh : Session :=
      { setup := setup, interpreter := interpreter, machine := .start setup.program properties }
    let after := (StateT.run (ExceptT.run (Host.deferConstants constants)) fresh).2
    session = { after with machine := { after.machine with journal := [] } } := by
  unfold Session.start Host.run at starts
  dsimp only at starts
  split at starts
  · cases starts
  · next isRun =>
    cases starts
    have isSession := congrArg (fun answered => answered.2.2) isRun
    exact isSession.symm

/-- What is true of a machine at the start, whatever constants are on its lists and whatever is in its
journal, is true when a session has started. -/
theorem Session.start_keeps {setup : Setup} {interpreter : Interpreter} {properties : Properties}
    {constants : List (String × String)} {session : Session} {kept : Machine → Prop}
    (deferred : ∀ machine constant, kept machine → kept (machine.deferConstant constant))
    (taken : ∀ machine : Machine, kept machine → kept { machine with journal := [] })
    (begun : kept (.start setup.program properties))
    (starts : Session.start setup interpreter properties constants = .ok session) :
    kept session.machine := by
  rw [eq_of_start starts]
  exact taken _ (Host.deferConstants_keeps deferred constants
    { setup := setup, interpreter := interpreter, machine := .start setup.program properties } begun)

/-- A session starts with a machine on which nothing has been called. -/
theorem Session.start_fresh {setup : Setup} {interpreter : Interpreter} {properties : Properties}
    {constants : List (String × String)} {session : Session}
    (starts : Session.start setup interpreter properties constants = .ok session) :
    session.machine.Fresh :=
  start_keeps (fun _ _ fresh => ⟨fresh.gate, fresh.history, fresh.queue, fresh.spawned⟩)
    (fun _ fresh => ⟨fresh.gate, fresh.history, fresh.queue, fresh.spawned⟩)
    (Machine.start_fresh setup.program properties) starts

end WorkerMachine
