import WorkerMachine.Proofs.Clearance.Moves
import WorkerMachine.Proofs.Machine.Effects
/-!
# Activities in the hands of threads

A thread acts for some contexts, the innermost one first, and knows their activities: nobody else
changes them.  Tasks that wait for a thread, or in the queue of a scheduler, are in nobody's hands.
So the discipline of clearance is that the machine and the activities always fit together, that an
init that has been settled stays settled, and that workers start only where they are cleared.
-/

namespace WorkerMachine

open Clearance

/-- The tasks that nobody has begun with: those that wait for threads, and those that wait in the
queue of a rehearsing scheduler. -/
def Machine.waitingTasks (machine : Machine) : List Task :=
  machine.spawned ++ machine.queue

def Task.activity (task : Task) (owner : Option ThreadId) (state : ContextState) : Activity :=
  ⟨owner, .worker task, task.context.parent, state, .nothing⟩

/-- A context may start workers of a package: the package has been initialized, or the context
descends through live parents from the one that runs the init of the package. -/
def Machine.Admits (machine : Machine) (package : String) (context : ContextId) : Prop :=
  machine.gate.isInitialized package = true ∨
    ∃ mark, machine.gate.marks.get? package = some mark ∧
      mark.context ∈ (machine.arena Machine.ownArena).ancestry context

/-- Where one machine comes from another by a step, inits that have been settled stay settled, and
every worker that has started was admitted. -/
structure Machine.Permits (before after : Machine) : Prop where
  settled : ∀ package outcome, before.gate.outcome? package = some outcome →
    after.gate.outcome? package = some outcome
  started : ∃ since, after.history = since ++ before.history ∧
    ∀ task, .started task ∈ since → ∀ unit worker,
      task.context.activity = some (unit, worker) →
        before.Admits unit.package task.context.id

theorem Machine.Permits.refl (machine : Machine) : machine.Permits machine :=
  ⟨fun _ _ => id, [], rfl, fun _ never => by cases never⟩

namespace Clearance

/-- Activities in the hands of a thread, the innermost one first. -/
abbrev Hand := List (ContextId × Activity)

/-- Which thread acts for which contexts, and which tasks wait for somebody to begin with them. -/
structure Dealt (waiting : List Task) (hands : ThreadId → Hand) (activities : Activities) :
    Prop where
  held : ∀ thread, ∀ entry ∈ hands thread,
    activities entry.1 = some entry.2 ∧ entry.2.owner = some thread
  once : ∀ thread, ((hands thread).map Prod.fst).Nodup
  waits : ∀ task ∈ waiting, activities task.context.id = some (task.activity none .runnable)
  waitsOnce : (waiting.map fun task => task.context.id).Nodup

variable {waiting later : List Task} {hands : ThreadId → Hand} {activities : Activities}
  {thread : ThreadId} {context : ContextId} {activity new : Activity} {front rest : Hand}

namespace Dealt

variable (dealt : Dealt waiting hands activities)

include dealt

theorem holds (holding : hands thread = front ++ (context, activity) :: rest) :
    activities context = some activity ∧ activity.owner = some thread :=
  dealt.held thread (context, activity) (by simp [holding])

theorem holds_head (holding : hands thread = (context, activity) :: rest) :
    activities context = some activity ∧ activity.owner = some thread :=
  dealt.held thread (context, activity) (by simp [holding])

theorem ne_of_held (holding : hands thread = front ++ (context, activity) :: rest)
    (entry : ContextId × Activity) (elsewhere : entry ∈ front ∨ entry ∈ rest) :
    entry.1 ≠ context := by
  have once := dealt.once thread
  rw [holding, List.map_append, List.map_cons, List.nodup_append] at once
  obtain ⟨_, behind, apart⟩ := once
  have memberOf : ∀ hand : Hand, entry ∈ hand → entry.1 ∈ hand.map Prod.fst :=
    fun hand member => List.mem_map_of_mem member
  rintro rfl
  rcases elsewhere with inFront | inRest
  · exact apart _ (memberOf front inFront) _ List.mem_cons_self rfl
  · exact (List.nodup_cons.mp behind).1 (memberOf rest inRest)

/-- If the activity of one context changes, for which no other thread acts, then one thread may take
another hand. -/
theorem regroup {changed : Activities} {hand : Hand}
    (agrees : ∀ other, other ≠ context → changed other = activities other)
    (apart : ∀ activity, activities context = some activity →
      ∀ other, other ≠ thread → activity.owner ≠ some other)
    (held : ∀ entry ∈ hand, changed entry.1 = some entry.2 ∧ entry.2.owner = some thread)
    (once : (hand.map Prod.fst).Nodup)
    (waits : ∀ task ∈ later, changed task.context.id = some (task.activity none .runnable))
    (waitsOnce : (later.map fun task => task.context.id).Nodup) :
    Dealt later (Function.update hands thread hand) changed where
  held := by
    intro other entry member
    by_cases same : other = thread
    · subst same
      rw [Function.update_self] at member
      exact held entry member
    · rw [Function.update_of_ne same] at member
      obtain ⟨found, isOwner⟩ := dealt.held other entry member
      rw [agrees]
      · exact ⟨found, isOwner⟩
      · rintro rfl
        exact apart entry.2 found other same isOwner
  once := by
    intro other
    by_cases same : other = thread
    · subst same
      rw [Function.update_self]
      exact once
    · rw [Function.update_of_ne same]
      exact dealt.once other
  waits := waits
  waitsOnce := waitsOnce

theorem ne_of_waiting (found : activities context = some activity) (owner : activity.owner ≠ none)
    {task : Task} (member : task ∈ waiting) : task.context.id ≠ context := by
  rintro rfl
  rw [dealt.waits task member] at found
  cases found
  exact owner rfl

theorem exchange (holding : hands thread = front ++ (context, activity) :: rest)
    (owner : new.owner = some thread) :
    Dealt waiting (Function.update hands thread (front ++ (context, new) :: rest))
      (Function.update activities context (some new)) := by
  obtain ⟨found, isOwner⟩ := dealt.holds holding
  refine dealt.regroup (fun other different => Function.update_of_ne different _ _) ?_ ?_ ?_ ?_
    dealt.waitsOnce
  · intro its isIts other different
    rw [found] at isIts
    cases isIts
    rw [isOwner]
    exact fun same => different (Option.some.inj same).symm
  · intro entry member
    have elsewhere : entry ∈ front ∨ entry ∈ rest →
        Function.update activities context (some new) entry.1 = some entry.2 ∧
          entry.2.owner = some thread := by
      intro isElsewhere
      rw [Function.update_of_ne (dealt.ne_of_held holding entry isElsewhere)]
      refine dealt.held thread entry ?_
      rw [holding]
      rcases isElsewhere with inFront | inRest
      · exact List.mem_append_left _ inFront
      · exact List.mem_append_right _ (List.mem_cons_of_mem _ inRest)
    rcases List.mem_append.mp member with inFront | behind
    · exact elsewhere (.inl inFront)
    · rcases List.mem_cons.mp behind with rfl | inRest
      · exact ⟨Function.update_self .., owner⟩
      · exact elsewhere (.inr inRest)
  · have once := dealt.once thread
    rw [holding] at once
    simpa using once
  · intro task member
    have notNone : activity.owner ≠ none := by simp [isOwner]
    rw [Function.update_of_ne (dealt.ne_of_waiting found notNone member)]
    exact dealt.waits task member

theorem drop (holding : hands thread = (context, activity) :: rest) {changed : Activities}
    (agrees : ∀ other, other ≠ context → changed other = activities other)
    (waits : ∀ task ∈ later, changed task.context.id = some (task.activity none .runnable))
    (waitsOnce : (later.map fun task => task.context.id).Nodup) :
    Dealt later (Function.update hands thread rest) changed := by
  have held := dealt.held thread
  have once := dealt.once thread
  rw [holding] at held once
  obtain ⟨found, isOwner⟩ := dealt.holds_head holding
  refine dealt.regroup agrees ?_ ?_ (List.nodup_cons.mp once).2 waits waitsOnce
  · intro its isIts other different
    rw [found] at isIts
    cases isIts
    rw [isOwner]
    exact fun same => different (Option.some.inj same).symm
  · intro entry member
    rw [agrees]
    · exact held entry (List.mem_cons_of_mem _ member)
    · exact fun same => (List.nodup_cons.mp once).1 (List.mem_map.mpr ⟨entry, member, same⟩)

theorem release (holding : hands thread = (context, activity) :: rest) :
    Dealt waiting (Function.update hands thread rest)
      (Function.update activities context none) := by
  obtain ⟨found, isOwner⟩ := dealt.holds_head holding
  refine dealt.drop holding (fun other different => Function.update_of_ne different _ _) ?_
    dealt.waitsOnce
  intro task member
  rw [Function.update_of_ne (dealt.ne_of_waiting found (by simp [isOwner]) member)]
  exact dealt.waits task member

theorem offer {task : Task}
    (holding : hands thread = (task.context.id, task.activity (some thread) .runnable) :: rest)
    (perm : later.Perm (task :: waiting)) :
    Dealt later (Function.update hands thread rest)
      (Function.update activities task.context.id (some (task.activity none .runnable))) := by
  obtain ⟨found, isOwner⟩ := dealt.holds_head holding
  have others : ∀ other ∈ waiting, other.context.id ≠ task.context.id :=
    fun other member => dealt.ne_of_waiting found (by simp [isOwner]) member
  refine dealt.drop holding (fun other different => Function.update_of_ne different _ _) ?_ ?_
  · intro other member
    rcases List.mem_cons.mp (perm.subset member) with rfl | isWaiting
    · exact Function.update_self ..
    · rw [Function.update_of_ne (others other isWaiting)]
      exact dealt.waits other isWaiting
  · refine (perm.map fun task => task.context.id).nodup_iff.mpr ?_
    rw [List.map_cons, List.nodup_cons]
    refine ⟨fun member => ?_, dealt.waitsOnce⟩
    obtain ⟨other, isWaiting, same⟩ := List.mem_map.mp member
    exact others other isWaiting same

/-- A thread takes an activity into its hand that is in nobody's. -/
theorem pick (owner : new.owner = some thread)
    (free : ∀ activity, activities context = some activity → activity.owner = none)
    (waits : ∀ task ∈ later, task ∈ waiting ∧ task.context.id ≠ context)
    (waitsOnce : (later.map fun task => task.context.id).Nodup) :
    Dealt later (Function.update hands thread ((context, new) :: hands thread))
      (Function.update activities context (some new)) := by
  have notHeld : ∀ entry ∈ hands thread, entry.1 ≠ context := by
    rintro entry member rfl
    obtain ⟨found, isOwner⟩ := dealt.held thread entry member
    rw [free entry.2 found] at isOwner
    cases isOwner
  refine dealt.regroup (fun other different => Function.update_of_ne different _ _) ?_ ?_ ?_ ?_
    waitsOnce
  · intro its isIts other _ isOwner
    rw [free its isIts] at isOwner
    cases isOwner
  · intro entry member
    rcases List.mem_cons.mp member with rfl | isHeld
    · exact ⟨Function.update_self .., owner⟩
    · rw [Function.update_of_ne (notHeld entry isHeld)]
      exact dealt.held thread entry isHeld
  · rw [List.map_cons, List.nodup_cons]
    refine ⟨fun member => ?_, dealt.once thread⟩
    obtain ⟨entry, isHeld, same⟩ := List.mem_map.mp member
    exact notHeld entry isHeld same
  · intro task member
    obtain ⟨isWaiting, different⟩ := waits task member
    rw [Function.update_of_ne different]
    exact dealt.waits task isWaiting

theorem create (unborn : activities context = none) (owner : new.owner = some thread) :
    Dealt waiting (Function.update hands thread ((context, new) :: hands thread))
      (Function.update activities context (some new)) := by
  refine dealt.pick owner ?_ (fun task member => ⟨member, ?_⟩) dealt.waitsOnce
  · intro activity found
    rw [unborn] at found
    cases found
  · rintro rfl
    rw [dealt.waits task member] at unborn
    cases unborn

theorem take {task : Task} (perm : waiting.Perm (task :: later)) :
    Dealt later
      (Function.update hands thread
        ((task.context.id, task.activity (some thread) .runnable) :: hands thread))
      (Function.update activities task.context.id
        (some (task.activity (some thread) .runnable))) := by
  have isWaiting : task ∈ waiting := perm.mem_iff.mpr List.mem_cons_self
  have waitsOnce := (perm.map fun task => task.context.id).nodup_iff.mp dealt.waitsOnce
  rw [List.map_cons, List.nodup_cons] at waitsOnce
  refine dealt.pick rfl ?_ (fun other member => ⟨?_, fun same => ?_⟩) waitsOnce.2
  · intro activity found
    rw [dealt.waits task isWaiting] at found
    cases found
    rfl
  · exact perm.mem_iff.mpr (List.mem_cons_of_mem _ member)
  · exact waitsOnce.1 (same ▸ List.mem_map_of_mem member)

end Dealt

end Clearance

/-- The discipline of threads that start workers of a package only where they are cleared for it. -/
def Discipline.clearing : Discipline ThreadId Machine Hand where
  fits := fun machine hands => ∃ activities,
    Sound machine.scene activities ∧ Dealt machine.waitingTasks hands activities
  permits := Machine.Permits
  excuses := fun _ _ _ => True
  permits_refl := Machine.Permits.refl

namespace Clearance

/-! ## Exchanging activities along with a step -/

/-- With a hand full of activities, a thread knows that they are those of a machine. -/
def Known (machine : Machine) (hand : Hand) (activities : Activities) : Prop :=
  Sound machine.scene activities ∧ ∀ entry ∈ hand, activities entry.1 = some entry.2

/-- As one machine becomes another one, a thread may exchange one hand for another. -/
def Exchanges (machine later : Machine) (thread : ThreadId) (before after : Hand) : Prop :=
  ∀ hands, Discipline.clearing.fits machine hands → hands thread = before →
    Discipline.clearing.fits later (Function.update hands thread after)

section Exchanging

variable {machine later last : Machine} {thread : ThreadId} {before between after : Hand}
  {context : ContextId} {activity new : Activity} {front rest : Hand}

theorem Exchanges.trans (first : Exchanges machine later thread before between)
    (second : Exchanges later last thread between after) :
    Exchanges machine last thread before after := by
  intro hands fits holding
  have exchanged := second _ (first hands fits holding) (Function.update_self ..)
  rwa [Function.update_idem] at exchanged

theorem exchanges_change (sameTasks : later.waitingTasks = machine.waitingTasks)
    (owner : activity.owner = some thread → new.owner = some thread)
    (sound : ∀ activities, Known machine (front ++ (context, activity) :: rest) activities →
      Sound later.scene (Function.update activities context (some new))) :
    Exchanges machine later thread (front ++ (context, activity) :: rest)
      (front ++ (context, new) :: rest) := by
  rintro hands ⟨activities, isSound, dealt⟩ holding
  obtain ⟨_, isOwner⟩ := dealt.holds holding
  refine ⟨_, sound activities ⟨isSound, fun entry member => ?_⟩, ?_⟩
  · exact (dealt.held thread entry (holding ▸ member)).1
  · rw [sameTasks]
    exact dealt.exchange holding (owner isOwner)

theorem exchanges_head (sameTasks : later.waitingTasks = machine.waitingTasks)
    (owner : activity.owner = some thread → new.owner = some thread)
    (sound : ∀ activities, Known machine ((context, activity) :: rest) activities →
      Sound later.scene (Function.update activities context (some new))) :
    Exchanges machine later thread ((context, activity) :: rest) ((context, new) :: rest) := by
  have changed : Exchanges machine later thread ([] ++ (context, activity) :: rest)
      ([] ++ (context, new) :: rest) :=
    exchanges_change sameTasks owner sound
  exact changed

/-- A change of the activity behind the innermost one. -/
theorem exchanges_second {first : ContextId × Activity}
    (sameTasks : later.waitingTasks = machine.waitingTasks)
    (owner : activity.owner = some thread → new.owner = some thread)
    (sound : ∀ activities, Known machine (first :: (context, activity) :: rest) activities →
      Sound later.scene (Function.update activities context (some new))) :
    Exchanges machine later thread (first :: (context, activity) :: rest)
      (first :: (context, new) :: rest) := by
  have changed : Exchanges machine later thread ([first] ++ (context, activity) :: rest)
      ([first] ++ (context, new) :: rest) :=
    exchanges_change sameTasks owner sound
  exact changed

theorem exchanges_create (sameTasks : later.waitingTasks = machine.waitingTasks)
    (owner : new.owner = some thread)
    (sound : ∀ activities, Known machine before activities → activities context = none ∧
      Sound later.scene (Function.update activities context (some new))) :
    Exchanges machine later thread before ((context, new) :: before) := by
  rintro hands ⟨activities, isSound, dealt⟩ holding
  obtain ⟨unborn, soundLater⟩ := sound activities ⟨isSound, fun entry member =>
    (dealt.held thread entry (holding ▸ member)).1⟩
  refine ⟨_, soundLater, ?_⟩
  rw [sameTasks, ← holding]
  exact dealt.create unborn owner

theorem exchanges_release (sameTasks : later.waitingTasks = machine.waitingTasks)
    (sound : ∀ activities, Known machine ((context, activity) :: rest) activities →
      Sound later.scene (Function.update activities context none)) :
    Exchanges machine later thread ((context, activity) :: rest) rest := by
  rintro hands ⟨activities, isSound, dealt⟩ holding
  refine ⟨_, sound activities ⟨isSound, fun entry member => ?_⟩, ?_⟩
  · exact (dealt.held thread entry (holding ▸ member)).1
  · rw [sameTasks]
    exact dealt.release holding

theorem Sound.reown {scene : Scene} {activities : Activities} (sound : Sound scene activities)
    (found : activities context = some activity) (owner : Option ThreadId) :
    Sound scene (Function.update activities context (some { activity with owner := owner })) := by
  refine sound.revise found ?_ ?_ ?_ (fun _ _ => rfl) ?_
  · rfl
  · rfl
  · rfl
  · exact sound.tree.recorded context activity found

theorem exchanges_offer {task : Task} (sameScene : later.scene = machine.scene)
    (tasks : later.waitingTasks.Perm (task :: machine.waitingTasks)) :
    Exchanges machine later thread
      ((task.context.id, task.activity (some thread) .runnable) :: rest) rest := by
  rintro hands ⟨activities, isSound, dealt⟩ holding
  refine ⟨_, ?_, dealt.offer holding tasks⟩
  rw [sameScene]
  exact isSound.reown (dealt.holds_head holding).1 none

theorem exchanges_take {task : Task} (sameScene : later.scene = machine.scene)
    (tasks : machine.waitingTasks.Perm (task :: later.waitingTasks)) :
    Exchanges machine later thread before
      ((task.context.id, task.activity (some thread) .runnable) :: before) := by
  rintro hands ⟨activities, isSound, dealt⟩ rfl
  refine ⟨_, ?_, dealt.take tasks⟩
  rw [sameScene]
  exact isSound.reown (dealt.waits task (tasks.mem_iff.mpr List.mem_cons_self)) (some thread)

/-- A step that leaves everything alone on which clearance depends. -/
structure Inert (machine later : Machine) : Prop where
  scene : later.scene = machine.scene
  history : later.history = machine.history
  waitingTasks : later.waitingTasks = machine.waitingTasks

end Exchanging

end Clearance

end WorkerMachine
