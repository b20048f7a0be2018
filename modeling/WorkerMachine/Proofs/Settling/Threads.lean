import WorkerMachine.Proofs.Machine.Threads
import WorkerMachine.Proofs.Settling.Scheduling
/-!
# Threads and the books

The stations of a machine run tasks as the books demand, and a thread that is started for a task takes
the task up from the pile.  On a machine on which nothing has been called there are no books yet.
-/

namespace WorkerMachine

open Settling

variable {setup : Setup} {interpreter : Interpreter}

theorem Setup.program_station (setup : Setup) (interpreter : Interpreter) (thread : ThreadId)
    (depth : Nat) : (setup.station interpreter thread depth).program = setup.program := by
  cases depth with
  | zero => rfl
  | succ depth => rfl

/-- On every station of a machine tasks are run as the books demand. -/
theorem Setup.station_settlesTasks (sound : setup.program.Sound) (settles : interpreter.Settles)
    (thread : ThreadId) (depth : Nat) :
    (setup.station interpreter thread depth).SettlesTasks := by
  induction depth with
  | zero =>
    intro task rest
    exact Effect.follows_stall fun _ _ _ _ => trivial
  | succ depth inductionHypothesis =>
    intro task rest
    have isSound : (setup.station interpreter thread depth).program.Sound := by
      rw [Setup.program_station]
      exact sound
    have carried := Station.carryOut_settles inductionHypothesis isSound settles task rest
    rw [Setup.thread_station] at carried
    exact carried

theorem Settling.Agree.takeSpawned {machine : Machine} {books : Books}
    {hands : ThreadId → Settling.Hand} {thread : ThreadId} {front rest : List Task} {task : Task}
    (agree : Agree machine books hands) (isIdle : hands thread = []) (nextThread : ThreadId)
    (isSpawned : machine.spawned = front ++ task :: rest) :
    Proceeds machine { machine with spawned := front ++ rest, nextThread := nextThread } ∧
      Agree { machine with spawned := front ++ rest, nextThread := nextThread } books
        (Function.update hands thread [.task task .ready]) := by
  have piles : Piles machine { machine with spawned := front ++ rest, nextThread := nextThread } :=
    ⟨rfl, rfl, rfl⟩
  have tasks : machine.waitingTasks.Perm
      (task :: Machine.waitingTasks { machine with
        spawned := front ++ rest, nextThread := nextThread }) := by
    unfold Machine.waitingTasks
    rw [isSpawned, List.append_assoc, List.append_assoc]
    exact List.perm_middle
  apply And.intro piles.proceeds
  rw [← isIdle]
  exact piles.take agree tasks

/-- Threads that are started for tasks take them up, and leave nothing behind. -/
theorem Setup.starts_welcoming_settling {Answer : Type} (sound : setup.program.Sound)
    (settles : interpreter.Settles) (depth : Nat) :
    Crowd.Welcoming .settling [] (fun _ _ _ => True)
      (setup.Starts interpreter depth : Arrivals ThreadId Machine (Option Answer)) := by
  intro machine hands thread process later fits isIdle starts
  obtain ⟨books, agree⟩ := fits
  cases starts with
  | @start _ _ front rest task nextThread isSpawned =>
    obtain ⟨proceeds, taken⟩ := agree.takeSpawned isIdle nextThread isSpawned
    refine ⟨proceeds, _, ⟨books, taken⟩, ?_⟩
    have ran := setup.station_settlesTasks sound settles thread depth task []
    rw [Setup.thread_station] at ran
    have counted : ∀ (panicked : Bool) (hand : Settling.Hand),
        (Process.modify (Machine.countEnded panicked)).Follows .settling thread hand
          fun _ _ => True := by
      intro panicked hand
      refine Process.Follows.weaken
        (Process.calm_modify fun _ => quiet_of_same rfl rfl rfl rfl) ?_
      exact fun _ _ _ => trivial
    apply Process.Follows.bind (Process.Follows.bind ran fun _ hand _ => counted _ hand)
    exact fun _ _ _ => trivial

/-- Nothing has been called on a machine yet. -/
structure Machine.Uncalled (machine : Machine) : Prop where
  responses : machine.responses = #[]
  history : machine.history = []
  queue : machine.queue = []
  spawned : machine.spawned = []

theorem Machine.start_uncalled (program : Program) (properties : Properties) :
    (Machine.start program properties).Uncalled :=
  ⟨rfl, rfl, rfl, rfl⟩

/-- Where nothing has been called, nobody has anything in hand, whatever is in the books. -/
theorem Machine.Uncalled.fits {machine : Machine} (uncalled : machine.Uncalled) :
    Discipline.settling.fits machine fun _ => [] := by
  have noTasks : machine.waitingTasks = [] := by
    unfold Machine.waitingTasks
    rw [uncalled.spawned, uncalled.queue]
    rfl
  have emptyPile : pile machine = [] := by
    unfold pile
    rw [noTasks]
    rfl
  have unopened : ∀ {response : ResponseId}, ¬response < machine.responses.size := by
    rw [uncalled.responses]
    exact fun opened => Nat.not_lt_zero _ opened
  refine ⟨⟨fun _ => ⟨default, default, default, [], false, [], false⟩, fun _ => .opening⟩, ?_⟩
  constructor
  case apart =>
    rw [emptyPile]
    exact ⟨fun _ => List.nodup_nil, fun _ _ _ _ => nofun⟩
  case held =>
    intro thread item never
    cases never
  case piled =>
    rw [emptyPile]
    intro item never
    cases never
  case kept => exact fun _ opened => absurd opened unopened
  case covered => exact fun _ opened => absurd opened unopened
  case started =>
    rw [uncalled.history]
    intro task never
    cases never

end WorkerMachine
