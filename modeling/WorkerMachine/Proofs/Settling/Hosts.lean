import WorkerMachine.Proofs.Clearance.Hosts
import WorkerMachine.Proofs.Settling.Inits
import WorkerMachine.Proofs.Settling.Threads
/-!
# Hosts and the books

A host that makes calls by name keeps the books about them.  Between two calls it has nothing in hand,
and neither has anybody when a session has started.
-/

namespace WorkerMachine

open Settling

variable {thread : ThreadId} {token : Settling.Hand} {station : Station}

theorem openRoot_settles (arena : ArenaKey) (properties : PropertiesKey)
    {upset : Interruption → Settling.Hand → Prop} :
    (openRoot arena properties).Follows .settling thread token
      (fun root last => last = .context root.place true :: token) upset := by
  unfold openRoot
  apply Effect.Follows.bind (registerContext_settles arena _ true fun _ => rfl)
  rintro id _ rfl
  exact rfl

namespace Station

variable (tasks : station.SettlesTasks) (sound : station.program.Sound)

include tasks sound

theorem callNamedIn_settles (root : Context) (package function : String) (arguments : List Value) :
    (station.callNamedIn root package function arguments).Stays .settling station.thread token
      fun _ => True := by
  unfold callNamedIn
  apply Effect.Stays.bind (Effect.stays_ofExcept fun _ isFound => isFound)
  intro found isFound
  apply Effect.Stays.bind (Effect.stays_ofExcept fun _ isFunction => isFunction)
  intro unit isFunction
  apply Effect.Stays.bind (Effect.stays_ofExcept fun _ _ => trivial)
  intro _ _
  have packageSound := (sound package found isFound).2
  apply Effect.Stays.bind (ensureInitialized_settles tasks packageSound root)
  intro _ _
  exact callValues_stays_settling tasks (packageSound.of_function isFunction).2 root arguments

/-- A call by name keeps the books, and leaves the hand as it is. -/
theorem callNamed_settles (package function : String) (arguments : List Value) :
    (station.callNamed package function arguments).Stays .settling station.thread token
      fun _ => True := by
  unfold callNamed
  apply Effect.Follows.bind (openRoot_settles _ _)
  rintro root _ rfl
  apply Effect.Follows.followedBy (callNamedIn_settles tasks sound root package function arguments)
  intro outcome hand reached
  have isHand : hand = .context root.place true :: token := by
    cases outcome with
    | ok _ => exact reached.1
    | error _ => exact reached
  rw [isHand]
  apply Process.Follows.weaken root.release_settles
  rintro _ _ rfl
  cases outcome with
  | ok _ => exact ⟨rfl, trivial⟩
  | error _ => exact rfl

theorem CallsByName.settles {Answer : Type} {process : Work Answer}
    (calls : station.CallsByName process) :
    process.Stays .settling station.thread token fun _ => True := by
  induction calls with
  | ended answer => exact Process.stays_done trivial
  | called package function arguments _ inductionHypothesis =>
    exact (callNamed_settles tasks sound package function arguments).run.bind
      fun outcome _ => inductionHypothesis outcome

end Station

/-- When a session has started, nothing has been called. -/
theorem Session.start_uncalled {setup : Setup} {interpreter : Interpreter}
    {properties : Properties} {constants : List (String × String)} {session : Session}
    (starts : Session.start setup interpreter properties constants = .ok session) :
    session.machine.Uncalled :=
  start_keeps (fun _ _ uncalled => ⟨uncalled.responses, uncalled.history, uncalled.queue,
      uncalled.spawned⟩)
    (fun _ uncalled => ⟨uncalled.responses, uncalled.history, uncalled.queue, uncalled.spawned⟩)
    (Machine.start_uncalled setup.program properties) starts

/-- Among hosts that make calls by name, and the threads that are started for them, the books are kept.
-/
theorem Crowd.orderly_settling {Answer : Type} {setup : Setup} {interpreter : Interpreter}
    {depth : Nat} {crowd : Crowd ThreadId Machine (Option Answer)} (sound : setup.program.Sound)
    (settles : interpreter.Settles) (uncalled : crowd.state.Uncalled)
    (hosts : ∀ thread process, crowd.process thread = some process →
      (setup.station interpreter thread depth).CallsByName process) :
    crowd.Orderly .settling [] fun _ _ _ => True := by
  refine ⟨fun _ => [], uncalled.fits, ?_, fun _ _ => rfl⟩
  intro thread process holds
  have program := setup.program_station interpreter thread depth
  have kept : process.Stays .settling (setup.station interpreter thread depth).thread []
      fun _ => True :=
    (hosts thread process holds).settles (Setup.station_settlesTasks sound settles thread depth)
      (by rwa [program])
  rw [Setup.thread_station] at kept
  exact Process.Follows.weaken kept fun _ _ _ => trivial

end WorkerMachine
