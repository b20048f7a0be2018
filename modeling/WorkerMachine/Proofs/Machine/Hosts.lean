import WorkerMachine.Proofs.Clearance.Hosts
import WorkerMachine.Proofs.Machine.Threads
/-!
# Hosts and disciplines

A host that makes calls by name follows every discipline that tolerates what is mild, if the calls that
pass the gate and the tasks follow it; and so do the threads that are started for tasks.
-/

namespace WorkerMachine

variable {Thread Token Answer : Type} [DecidableEq Thread]
  {discipline : Discipline Thread Machine Token} {thread : Thread} {token : Token}
  {station : Station}

section Calls

variable (tolerance : discipline.ToleratesMild thread token)

include tolerance

theorem openRoot_stays (arena : ArenaKey) (properties : PropertiesKey) :
    (openRoot arena properties).Stays discipline thread token fun _ => True :=
  (registerContext_stays tolerance _ _).bind fun _ _ => Effect.stays_pure trivial

namespace Station

theorem callValues_stays (tasks : station.TasksStay discipline thread token) (unit : Callable)
    (parent : Context) (arguments : List Value) :
    (station.callValues unit parent arguments).Stays discipline thread token fun _ => True := by
  unfold callValues
  refine Effect.Stays.bind (Effect.stays_ofExcept fun _ _ => trivial) fun _ _ => ?_
  refine Effect.Stays.bind (Effect.stays_mk fun _ _ => trivial) fun source _ => ?_
  refine (dispatch_stays tolerance tasks _ _ _ _ _).bind fun invocation _ => ?_
  refine Effect.Stays.bind (Effect.stays_work (join_stays tolerance tasks _ _ _)) fun answer _ => ?_
  refine Effect.Stays.bind (Effect.stays_mk fun _ _ => trivial) fun _ _ => ?_
  exact Effect.stays_ofAccess fun _ _ => trivial

theorem callNamedIn_stays (tasks : station.TasksStay discipline thread token)
    (gates : station.GatesStay discipline thread token) (parent : Context)
    (package function : String) (arguments : List Value) :
    (station.callNamedIn parent package function arguments).Stays discipline thread token
      fun _ => True := by
  unfold callNamedIn
  refine Effect.Stays.bind (Effect.stays_ofExcept fun _ isFound => isFound) fun found isFound => ?_
  refine Effect.Stays.bind (Effect.stays_ofExcept fun _ _ => trivial) fun unit _ => ?_
  refine Effect.Stays.bind (Effect.stays_ofExcept fun _ _ => trivial) fun _ _ => ?_
  refine (gates package found isFound parent).bind fun _ _ => ?_
  exact callValues_stays tolerance tasks unit parent arguments

theorem callNamed_stays (tasks : station.TasksStay discipline thread token)
    (gates : station.GatesStay discipline thread token) (package function : String)
    (arguments : List Value) :
    (station.callNamed package function arguments).Stays discipline thread token
      fun _ => True := by
  unfold callNamed
  refine (openRoot_stays tolerance _ _).bind fun root _ => ?_
  exact Effect.Stays.followedBy (callNamedIn_stays tolerance tasks gates root _ _ _)
    (release_stays tolerance root)

theorem CallsByName.stays {process : Work Answer} (calls : station.CallsByName process)
    (tasks : station.TasksStay discipline thread token)
    (gates : station.GatesStay discipline thread token) :
    process.Stays discipline thread token fun _ => True := by
  induction calls with
  | ended answer =>
      exact Process.stays_done trivial
  | called package function arguments _ inductionHypothesis =>
      exact (callNamed_stays tolerance tasks gates package function arguments).run.bind
        fun outcome _ => inductionHypothesis outcome

end Station

end Calls

/-! ## Crowds of hosts and started threads -/

section Crowds

variable {setup : Setup} {interpreter : Interpreter} {depth : Nat} {idle : Token}
  {discipline : Discipline ThreadId Machine Token}
  {crowd : Crowd ThreadId Machine (Option Answer)}
  (tolerance : ∀ thread, discipline.ToleratesMild thread idle)
  (tasks : ∀ thread, (setup.station interpreter thread depth).TasksStay discipline thread idle)

include tolerance tasks

theorem Setup.starts_welcoming_mild : Crowd.Welcoming discipline idle (fun _ _ _ => True)
    (setup.Starts interpreter depth : Arrivals ThreadId Machine (Option Answer)) := by
  intro machine hands thread process after fits isIdle starts
  cases starts with
  | @start _ _ front rest task nextThread isSpawned =>
      obtain ⟨permitted, fitsAfter⟩ := (tolerance thread).tolerates machine
        { machine with spawned := front ++ rest, nextThread := nextThread } hands fits isIdle
        (Machine.mild_of_same rfl rfl rfl rfl rfl rfl)
      refine ⟨permitted, idle, ?_, ?_⟩
      · rw [← isIdle, Function.update_eq_self]
        exact fitsAfter
      · exact Process.Follows.weaken (Setup.threadOf_stays (tolerance thread) (tasks thread) task)
          fun _ _ _ => trivial

/-- A crowd of hosts that make calls by name is orderly. -/
theorem Crowd.orderly_of_callsByName
    (gates : ∀ thread, (setup.station interpreter thread depth).GatesStay discipline thread idle)
    (fits : discipline.fits crowd.state fun _ => idle)
    (hosts : ∀ thread process, crowd.process thread = some process →
      (setup.station interpreter thread depth).CallsByName process) :
    crowd.Orderly discipline idle fun _ _ _ => True := by
  refine ⟨fun _ => idle, fits, fun thread process holds => ?_, fun _ _ => rfl⟩
  exact Process.Follows.weaken ((hosts thread process holds).stays (tolerance thread)
    (tasks thread) (gates thread)) fun _ _ _ => trivial

end Crowds

end WorkerMachine
