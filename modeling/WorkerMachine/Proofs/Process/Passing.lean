import Mathlib.Data.Set.Finite.Basic
import WorkerMachine.Proofs.Process.Discipline
/-!
# The end of a part of a process

A thread of a crowd carries out the first part of its process and goes on with the answer, while the
other threads move as they like.  At the moment when the first part ends, the thread has in hand what
the first part has brought it to.

What is known at one moment may also be laid into the hand of a thread that never moves, a bystander,
so that it is still known at every later moment.
-/

namespace WorkerMachine.Crowd

variable {Thread State Token Answer First : Type} [DecidableEq Thread]
  {arrivals : Arrivals Thread State Answer} {thread : Thread} {follow : First → Process State Answer}
  {first : First} {crowd middle later : Crowd Thread State Answer} {process : Process State First}
  {discipline : Discipline Thread State Token} {idle : Token}
  {goal : Thread → Answer → Token → Prop} {hands : Thread → Token}

/-! ## Passing from one part of a process to the next -/

/-- A crowd comes to be another one, and meanwhile the first part of the process of one of its threads
ends with an answer. -/
inductive Passes (arrivals : Arrivals Thread State Answer) (thread : Thread)
    (follow : First → Process State Answer) (first : First) (middle : Crowd Thread State Answer) :
    Process State First → Crowd Thread State Answer → Prop
  | done :
      middle.process thread = some (follow first) →
      Passes arrivals thread follow first middle (.done first) middle
  | step {crowd : Crowd Thread State Answer} {ready : State → Bool} {update : State → State}
      {next : State → Process State First} :
      crowd.process thread = some ((Process.step ready update next).bind follow) →
      ready crowd.state = true →
      Passes arrivals thread follow first middle (next crowd.state)
        (crowd.after thread (update crowd.state) ((next crowd.state).bind follow)) →
      Passes arrivals thread follow first middle (.step ready update next) crowd
  | wake {crowd : Crowd Thread State Answer} {milliseconds : Nat} {next : Process State First} :
      crowd.process thread = some ((Process.sleep milliseconds next).bind follow) →
      Passes arrivals thread follow first middle next
        (crowd.after thread crowd.state (next.bind follow)) →
      Passes arrivals thread follow first middle (.sleep milliseconds next) crowd
  | others {crowd later : Crowd Thread State Answer} {process : Process State First}
      {mover : Thread} :
      mover ≠ thread → crowd.Move arrivals mover later →
      Passes arrivals thread follow first middle process later →
      Passes arrivals thread follow first middle process crowd

def instead (crowd : Crowd Thread State Answer) (thread : Thread)
    (process : Process State Answer) : Crowd Thread State Answer :=
  crowd.after thread crowd.state process

theorem after_instead (state : State) (held other : Process State Answer) :
    (crowd.after thread state held).instead thread other = crowd.after thread state other := by
  unfold instead after
  rw [Function.update_idem]

theorem instead_after (state : State) (held other : Process State Answer) :
    (crowd.instead thread held).after thread state other = crowd.after thread state other := by
  unfold instead after
  rw [Function.update_idem]

theorem Move.instead {mover : Thread} (moved : crowd.Move arrivals mover later)
    (different : mover ≠ thread) (other : Process State Answer) :
    (crowd.instead thread other).Move arrivals mover (later.instead thread other) := by
  have untouched : (crowd.instead thread other).process mover = crowd.process mover :=
    Function.update_of_ne different ..
  have sameAfter : ∀ (state : State) (held : Process State Answer),
      (crowd.after mover state held).instead thread other =
        (crowd.instead thread other).after mover state held := by
    intro state held
    unfold Crowd.instead Crowd.after
    congr 1
    exact Function.update_comm different ..
  cases moved with
  | step begun isReady =>
    rw [sameAfter]
    exact .step (untouched.trans begun) isReady
  | wake begun =>
    rw [sameAfter]
    exact .wake (untouched.trans begun)
  | arrive missing arrives =>
    rw [sameAfter]
    exact .arrive (untouched.trans missing) arrives

/-- The thread makes the first move of a part of its process, and in the end goes on with the answer
of that part. -/
inductive SetsOut (arrivals : Arrivals Thread State Answer) (thread : Thread)
    (follow : First → Process State Answer) (first : First) (middle : Crowd Thread State Answer) :
    Process State First → Crowd Thread State Answer → Prop
  | step {crowd : Crowd Thread State Answer} {ready : State → Bool} {update : State → State}
      {next : State → Process State First} :
      crowd.process thread = some ((Process.step ready update next).bind follow) →
      ready crowd.state = true →
      Passes arrivals thread follow first middle (next crowd.state)
        (crowd.after thread (update crowd.state) ((next crowd.state).bind follow)) →
      SetsOut arrivals thread follow first middle (.step ready update next) crowd

/-- What a thread does with an answer makes no difference to how it comes to the answer. -/
theorem Passes.instead (passes : Passes arrivals thread follow first middle process crowd)
    (other : First → Process State Answer) :
    Passes arrivals thread other first (middle.instead thread (other first)) process
      (crowd.instead thread (process.bind other)) := by
  induction passes with
  | done => exact .done (Function.update_self ..)
  | step begun isReady _ inductionHypothesis =>
    rw [after_instead] at inductionHypothesis
    refine .step (Function.update_self ..) isReady ?_
    rw [instead_after]
    exact inductionHypothesis
  | wake begun _ inductionHypothesis =>
    rw [after_instead] at inductionHypothesis
    refine .wake (Function.update_self ..) ?_
    rw [instead_after]
    exact inductionHypothesis
  | others different moved _ inductionHypothesis =>
    exact .others different (moved.instead different _) inductionHypothesis

section Views

variable {Second : Type} {view : First → Second} {second : Second}
  {goesOn : Second → Process State Answer} {whole : Process State Second}

/-- Where a process only looks at an answer in its own way, a thread comes to that answer first. -/
theorem Passes.of_view (passes : Passes arrivals thread goesOn second middle whole crowd)
    (isWhole : whole = process.bind fun first => .done (view first)) :
    ∃ first, second = view first ∧
      Passes arrivals thread (fun first => goesOn (view first)) first middle process crowd := by
  induction passes generalizing process with
  | done isNext =>
    cases process with
    | done first =>
      cases isWhole
      exact ⟨first, rfl, .done isNext⟩
    | step => cases isWhole
    | sleep => cases isWhole
  | @step _ ready update _ begun isReady _ inductionHypothesis =>
    cases process with
    | done first => cases isWhole
    | sleep => cases isWhole
    | step _ _ next =>
      cases isWhole
      obtain ⟨first, isView, passes⟩ := inductionHypothesis rfl
      rw [Process.bind_assoc] at passes
      refine ⟨first, isView, .step (begun.trans ?_) isReady passes⟩
      exact congrArg some (Process.bind_assoc (.step ready update next) _ _)
  | @wake _ milliseconds _ begun _ inductionHypothesis =>
    cases process with
    | done first => cases isWhole
    | step => cases isWhole
    | sleep _ next =>
      cases isWhole
      obtain ⟨first, isView, passes⟩ := inductionHypothesis rfl
      rw [Process.bind_assoc] at passes
      refine ⟨first, isView, .wake (begun.trans ?_) passes⟩
      exact congrArg some (Process.bind_assoc (.sleep milliseconds next) _ _)
  | others different moved _ inductionHypothesis =>
    obtain ⟨first, isView, passes⟩ := inductionHypothesis isWhole
    exact ⟨first, isView, .others different moved passes⟩

theorem SetsOut.of_view (setsOut : SetsOut arrivals thread goesOn second middle whole crowd)
    (isWhole : whole = process.bind fun first => .done (view first)) :
    ∃ first, second = view first ∧
      SetsOut arrivals thread (fun first => goesOn (view first)) first middle process crowd := by
  cases setsOut with
  | @step _ ready update _ begun isReady passes =>
    cases process with
    | done first => cases isWhole
    | sleep => cases isWhole
    | step _ _ next =>
      cases isWhole
      obtain ⟨first, isView, passes⟩ := passes.of_view rfl
      rw [Process.bind_assoc] at passes
      refine ⟨first, isView, .step (begun.trans ?_) isReady passes⟩
      exact congrArg some (Process.bind_assoc (.step ready update next) _ _)

end Views

/-- A process that has ended comes to nothing else. -/
theorem Passes.eq_of_done {ended : First}
    (passes : Passes arrivals thread follow first middle (.done ended) crowd) : ended = first := by
  generalize isDone : Process.done ended = process at passes
  induction passes with
  | done => exact Process.done.inj isDone
  | step => cases isDone
  | wake => cases isDone
  | others _ _ _ inductionHypothesis => exact inductionHypothesis isDone

/-- Where a process consists of two parts, a thread passes through the end of the first one. -/
theorem Passes.exists_between {Second : Type} {work : Process State Second}
    {rest : Second → Process State First}
    (passes : Passes arrivals thread follow first middle (work.bind rest) crowd) :
    ∃ second between,
      Passes arrivals thread (fun second => (rest second).bind follow) second between work crowd ∧
        Passes arrivals thread follow first middle (rest second) between := by
  generalize isWhole : work.bind rest = whole at passes
  induction passes generalizing work with
  | done isNext =>
    cases work with
    | done second =>
      have isRest : rest second = .done first := isWhole
      refine ⟨second, _, .done ?_, isRest ▸ .done isNext⟩
      rw [isRest]
      exact isNext
    | step => cases isWhole
    | sleep => cases isWhole
  | @step crowd ready update next begun isReady passes inductionHypothesis =>
    cases work with
    | done second =>
      have isRest : rest second = .step ready update next := isWhole
      refine ⟨second, crowd, .done ?_, isRest ▸ .step begun isReady passes⟩
      rw [isRest]
      exact begun
    | sleep => cases isWhole
    | step _ _ next =>
      cases isWhole
      obtain ⟨second, between, passesFirst, passesOn⟩ := inductionHypothesis rfl
      rw [Process.bind_assoc] at passesFirst
      refine ⟨second, between, .step (begun.trans ?_) isReady passesFirst, passesOn⟩
      exact congrArg some (Process.bind_assoc (.step ready update next) _ _)
  | @wake crowd milliseconds next begun passes inductionHypothesis =>
    cases work with
    | done second =>
      have isRest : rest second = .sleep milliseconds next := isWhole
      refine ⟨second, crowd, .done ?_, isRest ▸ .wake begun passes⟩
      rw [isRest]
      exact begun
    | step => cases isWhole
    | sleep _ next =>
      cases isWhole
      obtain ⟨second, between, passesFirst, passesOn⟩ := inductionHypothesis rfl
      rw [Process.bind_assoc] at passesFirst
      refine ⟨second, between, .wake (begun.trans ?_) passesFirst, passesOn⟩
      exact congrArg some (Process.bind_assoc (.sleep milliseconds next) _ _)
  | others different moved _ inductionHypothesis =>
    obtain ⟨second, between, passesFirst, passesOn⟩ := inductionHypothesis isWhole
    exact ⟨second, between, .others different moved passesFirst, passesOn⟩

theorem SetsOut.passes (setsOut : SetsOut arrivals thread follow first middle process crowd) :
    Passes arrivals thread follow first middle process crowd := by
  cases setsOut with
  | step begun isReady passes => exact .step begun isReady passes

theorem SetsOut.exists_between {Second : Type} {work : Process State Second}
    {rest : Second → Process State First}
    (setsOut : SetsOut arrivals thread follow first middle (work.bind rest) crowd)
    (busy : ∀ second, work ≠ .done second) :
    ∃ second between,
      SetsOut arrivals thread (fun second => (rest second).bind follow) second between work crowd ∧
        Passes arrivals thread follow first middle (rest second) between := by
  generalize isWhole : work.bind rest = whole at setsOut
  cases setsOut with
  | @step _ ready update _ begun isReady passes =>
    cases work with
    | done second => exact absurd rfl (busy second)
    | sleep => cases isWhole
    | step _ _ next =>
      cases isWhole
      obtain ⟨second, between, passesFirst, passesOn⟩ := passes.exists_between
      rw [Process.bind_assoc] at passesFirst
      refine ⟨second, between, .step (begun.trans ?_) isReady passesFirst, passesOn⟩
      exact congrArg some (Process.bind_assoc (.step ready update next) _ _)

theorem Passes.leads (passes : Passes arrivals thread follow first middle process crowd) :
    crowd.Leads arrivals middle := by
  induction passes with
  | done => exact .refl
  | step begun isReady _ inductionHypothesis =>
    exact .head ⟨thread, .step begun isReady⟩ inductionHypothesis
  | wake begun _ inductionHypothesis => exact .head ⟨thread, .wake begun⟩ inductionHypothesis
  | others _ moved _ inductionHypothesis => exact .head ⟨_, moved⟩ inductionHypothesis

/-- In the end the thread is about to go on with the answer. -/
theorem Passes.reached (passes : Passes arrivals thread follow first middle process crowd) :
    middle.process thread = some (follow first) := by
  induction passes with
  | done isNext => exact isNext
  | step _ _ _ inductionHypothesis => exact inductionHypothesis
  | wake _ _ inductionHypothesis => exact inductionHypothesis
  | others _ _ _ inductionHypothesis => exact inductionHypothesis

/-- A thread that passes a step takes it at some moment, and goes on from there. -/
theorem Passes.exists_step {ready : State → Bool} {update : State → State}
    {next : State → Process State First}
    (passes : Passes arrivals thread follow first middle (.step ready update next) crowd) :
    ∃ moment taken, crowd.Leads arrivals moment ∧ moment.Leads arrivals taken ∧
      taken.state = update moment.state ∧
      Passes arrivals thread follow first middle (next moment.state) taken := by
  generalize isStep : Process.step ready update next = process at passes
  induction passes with
  | done => cases isStep
  | @step crowd _ _ _ begun isReady passes =>
    cases isStep
    exact ⟨crowd, _, .refl, .single ⟨thread, .step begun isReady⟩, rfl, passes⟩
  | wake => cases isStep
  | others _ moved _ inductionHypothesis =>
    obtain ⟨moment, taken, leads, leadsTaken, isTaken, passes⟩ := inductionHypothesis isStep
    exact ⟨moment, taken, .head ⟨_, moved⟩ leads, leadsTaken, isTaken, passes⟩

theorem Passes.exists_taken {ready : State → Bool} {update : State → State}
    {next : State → Process State First}
    (passes : Passes arrivals thread follow first middle (.step ready update next) crowd) :
    ∃ moment taken, crowd.Leads arrivals moment ∧ crowd.Leads arrivals taken ∧
      taken.Leads arrivals middle ∧ taken.state = update moment.state := by
  obtain ⟨moment, taken, leads, leadsTaken, isTaken, passes⟩ := passes.exists_step
  exact ⟨moment, taken, leads, leads.trans leadsTaken, passes.leads, isTaken⟩

theorem Passes.exists_moment {operation : State → First × State}
    (passes : Passes arrivals thread follow first middle (.atomically operation) crowd) :
    ∃ moment, crowd.Leads arrivals moment ∧ moment.Leads arrivals middle ∧
      first = (operation moment.state).1 := by
  obtain ⟨moment, taken, leads, leadsTaken, _, passes⟩ := exists_step passes
  exact ⟨moment, leads, leadsTaken.trans passes.leads, passes.eq_of_done.symm⟩

theorem after_after (between state : State) (held other : Process State Answer) :
    (crowd.after thread between held).after thread state other = crowd.after thread state other := by
  unfold after
  rw [Function.update_idem]

theorem after_self {held : Process State Answer} (holds : crowd.process thread = some held) :
    crowd.after thread crowd.state held = crowd := by
  unfold after
  rw [Function.update_eq_self_iff.mpr holds.symm]

/-- A thread that runs alone passes on where its first part ends, and nobody else has moved then. -/
theorem passes_of_runAlone {state : State}
    (begun : crowd.process thread = some (process.bind follow))
    (ran : process.runAlone crowd.state = some (first, state)) :
    Passes arrivals thread follow first (crowd.after thread state (follow first)) process crowd := by
  induction process generalizing crowd with
  | done answer =>
    cases ran
    have unmoved : crowd.after thread crowd.state (follow first) = crowd := after_self begun
    rw [unmoved]
    exact .done begun
  | step ready update next inductionHypothesis =>
    unfold Process.runAlone at ran
    split at ran
    · next isReady =>
      have goesOn := @inductionHypothesis crowd.state
        (crowd.after thread (update crowd.state) ((next crowd.state).bind follow))
        (Function.update_self ..) ran
      rw [after_after] at goesOn
      exact .step begun isReady goesOn
    · cases ran
  | sleep milliseconds next inductionHypothesis =>
    have goesOn := @inductionHypothesis (crowd.after thread crowd.state (next.bind follow))
      (Function.update_self ..) ran
    rw [after_after] at goesOn
    exact .wake begun goesOn

/-- A thread that runs alone sets out and comes to where its first part ends. -/
theorem setsOut_of_runAlone {state : State} {ready : State → Bool} {update : State → State}
    {next : State → Process State First}
    (begun : crowd.process thread = some ((Process.step ready update next).bind follow))
    (ran : (Process.step ready update next).runAlone crowd.state = some (first, state)) :
    SetsOut arrivals thread follow first (crowd.after thread state (follow first))
      (.step ready update next) crowd := by
  unfold Process.runAlone at ran
  split at ran
  · next isReady =>
    have begunNext : (crowd.after thread (update crowd.state)
        ((next crowd.state).bind follow)).process thread = some ((next crowd.state).bind follow) :=
      Function.update_self ..
    have passes : Passes arrivals thread follow first _ (next crowd.state)
        (crowd.after thread (update crowd.state) ((next crowd.state).bind follow)) :=
      passes_of_runAlone begunNext ran
    rw [after_after] at passes
    exact .step begun isReady passes
  · cases ran

/-- A thread that runs alone passes on where its first part ends. -/
theorem exists_passes_of_runAlone {state : State}
    (begun : crowd.process thread = some (process.bind follow))
    (ran : process.runAlone crowd.state = some (first, state)) :
    ∃ middle, Passes arrivals thread follow first middle process crowd ∧ middle.state = state :=
  ⟨_, passes_of_runAlone begun ran, rfl⟩

/-- In an orderly crowd, a thread that passes from one part of its process to the next has in hand
what the first part has brought it to. -/
theorem OrderlyWith.passes {between : First → Token → Prop}
    (welcoming : Welcoming discipline idle goal arrivals)
    (orderly : crowd.OrderlyWith discipline idle goal hands)
    (follows : process.Follows discipline thread (hands thread) between)
    (goesOn : ∀ first token, between first token →
      (follow first).Follows discipline thread token (goal thread))
    (passes : Passes arrivals thread follow first middle process crowd) :
    ∃ hands, middle.OrderlyWith discipline idle goal hands ∧ between first (hands thread) := by
  induction passes generalizing hands with
  | done _ => exact ⟨hands, orderly, follows⟩
  | step begun isReady _ inductionHypothesis =>
    obtain ⟨_, exchanged, fits, rest⟩ := (follows _ hands orderly.fits rfl).1 isReady
    have goesOnAfter := orderly.after fits (rest.bind goesOn)
    apply inductionHypothesis goesOnAfter
    rw [Function.update_self]
    exact rest
  | @wake crowd milliseconds next begun _ inductionHypothesis =>
    have awake : next.Follows discipline thread (hands thread) between := follows
    have fits : discipline.fits crowd.state (Function.update hands thread (hands thread)) := by
      rw [Function.update_eq_self]
      exact orderly.fits
    apply inductionHypothesis (orderly.after fits (awake.bind goesOn))
    rw [Function.update_self]
    exact awake
  | others different moved _ inductionHypothesis =>
    obtain ⟨_, exchanged, orderlyAfter⟩ := orderly.move welcoming moved
    apply inductionHypothesis orderlyAfter
    rw [Function.update_of_ne (Ne.symm different)]
    exact follows

/-! ## Parts that follow a discipline by themselves -/

/-- The crowd is orderly but for what one of its threads is about to do: it would be orderly if that
thread had ended. -/
def OrderlyApart (discipline : Discipline Thread State Token) (idle : Token) (thread : Thread)
    (crowd : Crowd Thread State Answer) (hands : Thread → Token) : Prop :=
  ∃ answer, (crowd.instead thread (.done answer)).OrderlyWith discipline idle (fun _ _ _ => True)
    hands

theorem OrderlyApart.fits (orderly : crowd.OrderlyApart discipline idle thread hands) :
    discipline.fits crowd.state hands := by
  obtain ⟨_, orderlyWith⟩ := orderly
  exact orderlyWith.fits

theorem OrderlyWith.apart (orderly : crowd.OrderlyWith discipline idle (fun _ _ _ => True) hands)
    (thread : Thread) (answer : Answer) : crowd.OrderlyApart discipline idle thread hands := by
  have fits : discipline.fits crowd.state (Function.update hands thread (hands thread)) := by
    rw [Function.update_eq_self]
    exact orderly.fits
  have isOver : (Process.done answer : Process State Answer).Follows discipline thread
      (hands thread) fun _ _ => True :=
    trivial
  have ended := orderly.after fits isOver
  rw [Function.update_eq_self] at ended
  exact ⟨answer, ended⟩

theorem OrderlyApart.of_alone (answer : Answer) (fits : discipline.fits crowd.state hands)
    (missing : ∀ other, other ≠ thread → crowd.process other = none)
    (isIdle : ∀ other, other ≠ thread → hands other = idle) :
    crowd.OrderlyApart discipline idle thread hands := by
  refine ⟨answer, fits, ?_, ?_⟩
  · intro other process begun
    by_cases same : other = thread
    · subst same
      have isOver : Process.done answer = process := by
        simpa [Crowd.instead, Crowd.after] using begun
      rw [← isOver]
      exact trivial
    · have never : crowd.process other = some process := by
        simpa [Crowd.instead, Crowd.after, same] using begun
      rw [missing other same] at never
      cases never
  · intro other isMissing
    by_cases same : other = thread
    · subst same
      simp [Crowd.instead, Crowd.after] at isMissing
    · exact isIdle other same

/-- If a part of the process of a thread follows a discipline, then the thread has in hand afterwards
what this part has brought it to, whatever it goes on with. -/
theorem OrderlyApart.passes {between : First → Token → Prop} {token : Token}
    (welcoming : Welcoming discipline idle (fun _ _ _ => True) arrivals)
    (orderly : crowd.OrderlyApart discipline idle thread hands) (holding : hands thread = token)
    (follows : process.Follows discipline thread token between)
    (passes : Passes arrivals thread follow first middle process crowd) :
    ∃ hands, middle.OrderlyApart discipline idle thread hands ∧ between first (hands thread) := by
  subst holding
  obtain ⟨answer, orderlyWith⟩ := orderly
  have fits : discipline.fits crowd.state (Function.update hands thread (hands thread)) := by
    rw [Function.update_eq_self]
    exact orderlyWith.fits
  have ended : ∀ first token, between first token →
      (Process.done answer : Process State Answer).Follows discipline thread token
        fun _ _ => True :=
    fun _ _ _ => trivial
  have begun : (crowd.instead thread (process.bind fun _ => .done answer)).OrderlyWith discipline idle
      (fun _ _ _ => True) hands := by
    have after := orderlyWith.after fits (follows.bind ended)
    rw [Function.update_eq_self, instead_after] at after
    exact after
  obtain ⟨hands, orderlyAfter, reached⟩ :=
    begun.passes welcoming follows ended (passes.instead fun _ => .done answer)
  exact ⟨hands, ⟨answer, orderlyAfter⟩, reached⟩

/-- A thread that has come to its answer keeps what it has in hand. -/
theorem OrderlyApart.passes_done {ended : First}
    (welcoming : Welcoming discipline idle (fun _ _ _ => True) arrivals)
    (orderly : crowd.OrderlyApart discipline idle thread hands)
    (passes : Passes arrivals thread follow first middle (.done ended) crowd) :
    ended = first ∧
      ∃ after, middle.OrderlyApart discipline idle thread after ∧ after thread = hands thread := by
  have isOver : (Process.done ended : Process State First).Follows discipline thread (hands thread)
      fun _ last => last = hands thread :=
    rfl
  exact ⟨passes.eq_of_done, orderly.passes welcoming rfl isOver passes⟩

theorem OrderlyApart.instead (orderly : crowd.OrderlyApart discipline idle thread hands)
    (process : Process State Answer) :
    (crowd.instead thread process).OrderlyApart discipline idle thread hands := by
  obtain ⟨answer, orderlyWith⟩ := orderly
  refine ⟨answer, ?_⟩
  rw [show (crowd.instead thread process).instead thread (.done answer) =
    crowd.instead thread (.done answer) from after_instead ..]
  exact orderlyWith

/-- The others may move before the thread takes its next step, but it keeps what it has in hand. -/
theorem OrderlyApart.exists_setsOut
    (welcoming : Welcoming discipline idle (fun _ _ _ => True) arrivals)
    (orderly : crowd.OrderlyApart discipline idle thread hands) {ready : State → Bool}
    {update : State → State} {next : State → Process State First}
    (passes : Passes arrivals thread follow first middle (.step ready update next) crowd) :
    ∃ moment held, crowd.Leads arrivals moment ∧
      moment.OrderlyApart discipline idle thread held ∧ held thread = hands thread ∧
      SetsOut arrivals thread follow first middle (.step ready update next) moment := by
  generalize isStep : Process.step ready update next = process at passes
  induction passes generalizing hands with
  | done => cases isStep
  | step begun isReady passes =>
    cases isStep
    exact ⟨_, hands, .refl, orderly, rfl, .step begun isReady passes⟩
  | wake => cases isStep
  | others different moved _ inductionHypothesis =>
    obtain ⟨answer, orderlyWith⟩ := orderly
    obtain ⟨_, exchanged, orderlyAfter⟩ :=
      orderlyWith.move welcoming (moved.instead different (.done answer))
    obtain ⟨moment, held, leads, orderlyThen, sameHand, setsOut⟩ :=
      inductionHypothesis ⟨answer, orderlyAfter⟩ isStep
    rw [Function.update_of_ne (Ne.symm different)] at sameHand
    exact ⟨moment, held, .head ⟨_, moved⟩ leads, orderlyThen, sameHand, setsOut⟩

/-! ## Bystanders -/

def beside (crowd : Crowd Thread State Answer) (spare : Thread) (answer : Answer) :
    Crowd Thread State Answer :=
  crowd.after spare crowd.state (.done answer)

variable {spare : Thread} {answer : Answer}

/-- A thread that has come stays. -/
theorem Move.stays {mover : Thread} (moved : crowd.Move arrivals mover later) (thread : Thread)
    (missing : later.process thread = none) : mover ≠ thread ∧ crowd.process thread = none := by
  have isAfter : ∀ {state : State} {process : Process State Answer},
      (crowd.after mover state process).process thread = none →
        mover ≠ thread ∧ crowd.process thread = none := by
    intro state process missing
    by_cases same : thread = mover
    · subst same
      simp [Crowd.after] at missing
    · exact ⟨Ne.symm same, by simpa [Crowd.after, same] using missing⟩
  cases moved with
  | step => exact isAfter missing
  | wake => exact isAfter missing
  | arrive => exact isAfter missing

theorem Leads.stays (leads : crowd.Leads arrivals later) (thread : Thread)
    (missing : later.process thread = none) : crowd.process thread = none := by
  induction leads with
  | refl => exact missing
  | tail _ moved inductionHypothesis =>
    obtain ⟨mover, moved⟩ := moved
    exact inductionHypothesis (moved.stays thread missing).2

def Arrivals.except (arrivals : Arrivals Thread State Answer) (spare : Thread) :
    Arrivals Thread State Answer :=
  fun state thread process later => thread ≠ spare ∧ arrivals state thread process later

/-- A bystander does not hinder the others. -/
theorem Move.beside {mover : Thread} (moved : crowd.Move arrivals mover later)
    (different : mover ≠ spare) :
    (crowd.beside spare answer).Move (Arrivals.except arrivals spare) mover
      (later.beside spare answer) := by
  have movedBeside : (crowd.beside spare answer).Move arrivals mover (later.beside spare answer) :=
    moved.instead different (.done answer)
  generalize crowd.beside spare answer = before at movedBeside ⊢
  generalize later.beside spare answer = after at movedBeside ⊢
  cases movedBeside with
  | step begun isReady => exact .step begun isReady
  | wake begun => exact .wake begun
  | arrive missing arrives => exact .arrive missing ⟨different, arrives⟩

theorem Leads.beside (leads : crowd.Leads arrivals later) (missing : later.process spare = none) :
    (crowd.beside spare answer).Leads (Arrivals.except arrivals spare)
      (later.beside spare answer) := by
  induction leads with
  | refl => exact .refl
  | tail _ moved inductionHypothesis =>
    obtain ⟨mover, moved⟩ := moved
    obtain ⟨different, wasMissing⟩ := moved.stays spare missing
    exact (inductionHypothesis wasMissing).tail ⟨mover, moved.beside different⟩

/-- A bystander keeps what is laid into its hand. -/
theorem OrderlyWith.beside {held : Token}
    (orderly : crowd.OrderlyWith discipline idle (fun _ _ _ => True) hands)
    (fits : discipline.fits crowd.state (Function.update hands spare held)) :
    (crowd.beside spare answer).OrderlyWith discipline idle
      (fun thread _ last => thread = spare → last = held) (Function.update hands spare held) where
  fits := fits
  follows := by
    intro thread process begun
    by_cases same : thread = spare
    · subst same
      have isProcess : Process.done answer = process := by
        simpa [Crowd.beside, Crowd.after] using begun
      rw [Function.update_self, ← isProcess]
      exact fun _ => rfl
    · rw [Function.update_of_ne same]
      have wasBegun : crowd.process thread = some process := by
        simpa [Crowd.beside, Crowd.after, same] using begun
      exact (orderly.follows thread process wasBegun).weaken fun _ _ _ isSpare => absurd isSpare same
  absent := by
    intro thread missing
    by_cases same : thread = spare
    · subst same
      simp [Crowd.beside, Crowd.after] at missing
    · rw [Function.update_of_ne same]
      exact orderly.absent thread (by simpa [Crowd.beside, Crowd.after, same] using missing)

theorem Welcoming.beside {held : Token}
    (welcoming : Welcoming discipline idle (fun _ _ _ => True) arrivals) :
    Welcoming discipline idle (fun thread _ last => thread = spare → last = held)
      (Arrivals.except arrivals spare) := by
  intro state hands thread process later fits isIdle arrives
  obtain ⟨different, arrives⟩ := arrives
  obtain ⟨permitted, exchanged, fitsAfter, follows⟩ :=
    welcoming state hands thread process later fits isIdle arrives
  exact ⟨permitted, exchanged, fitsAfter,
    follows.weaken fun _ _ _ isSpare => absurd isSpare different⟩

/-- What fits in the hand of a thread that does not come will still be fitting there later. -/
theorem OrderlyWith.exists_fits_of_leads {held : Token} (answer : Answer)
    (welcoming : Welcoming discipline idle (fun _ _ _ => True) arrivals)
    (orderly : crowd.OrderlyWith discipline idle (fun _ _ _ => True) hands)
    (fits : discipline.fits crowd.state (Function.update hands spare held))
    (leads : crowd.Leads arrivals later) (missing : later.process spare = none) :
    ∃ hands, discipline.fits later.state hands ∧ hands spare = held := by
  have besides : (crowd.beside spare answer).Leads (Arrivals.except arrivals spare)
      (later.beside spare answer) :=
    Leads.beside leads missing
  obtain ⟨hands, orderlyAfter⟩ := Orderly.leads welcoming.beside ⟨_, orderly.beside fits⟩ besides
  have ended : (later.beside spare answer).Ended spare answer := Function.update_self ..
  exact ⟨hands, orderlyAfter.fits, orderlyAfter.ended ended rfl⟩

/-! ## Finite crowds -/

/-- Only finitely many threads have come. -/
def IsFinite (crowd : Crowd Thread State Answer) : Prop :=
  {thread | crowd.process thread ≠ none}.Finite

theorem IsFinite.after (finite : crowd.IsFinite) (mover : Thread) (state : State)
    (process : Process State Answer) : (crowd.after mover state process).IsFinite := by
  apply (finite.insert mover).subset
  intro thread isThere
  by_cases same : thread = mover
  · exact .inl same
  · exact .inr fun missing => isThere ((Function.update_of_ne same ..).trans missing)

theorem IsFinite.leads (finite : crowd.IsFinite) (leads : crowd.Leads arrivals later) :
    later.IsFinite := by
  induction leads with
  | refl => exact finite
  | tail _ moved inductionHypothesis =>
    obtain ⟨mover, moved⟩ := moved
    cases moved with
    | step => exact inductionHypothesis.after ..
    | wake => exact inductionHypothesis.after ..
    | arrive => exact inductionHypothesis.after ..

end WorkerMachine.Crowd
