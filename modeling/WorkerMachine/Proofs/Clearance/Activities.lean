import Mathlib.Data.List.Nodup
import Mathlib.Data.List.Perm.Subperm
import Mathlib.Logic.Function.Basic
import Mathlib.Logic.Relation
import WorkerMachine.Machine.Runner
import WorkerMachine.Proofs.Registers.Layouts
/-!
# What live contexts are about

A context whose worker calls a function first has to be cleared for the package of the function: the
package has been initialized, or the context descends from the one whose init of the package is
under way.  Clearance of the second kind ends with the init, so it has to be shown that everything
that was begun with it has come to its end by then.

For this every live context is given an activity, which tells what the context is for and what it is
just doing.  A context with children is always busy: it makes a call whose workers have not all
ended, or runs an init.  So the line of ancestors of a busy context stays as it is
(`Sound.busy_of_descends`).
-/

namespace WorkerMachine.Clearance

/-- A call whose workers are being made, or run. -/
structure OpenCall where
  unit : Callable
  response : ResponseId
  /-- The contexts that have been made for workers. -/
  made : List ContextId
  /-- The contexts that were dropped before their workers ran. -/
  dropped : List ContextId

/-- What a context is just doing. -/
inductive Pursuit where
  | nothing
  /-- It has come upon the mark of a package, which names a context. -/
  | judging (package : String) (context : ContextId)
  /-- It may call units of a package. -/
  | cleared (package : String)
  /-- It runs the init of a package, in a context of its own if there is an init unit. -/
  | initializing (package : String) (init : Option ContextId) (called : Bool)
  | calling (call : OpenCall)

inductive Role where
  /-- It is a root on the path of the host. -/
  | root
  /-- It belongs to the worker of a task that has not ended. -/
  | worker (task : Task)
  /-- It belongs to the init of a package. -/
  | init (package : String)
  /-- Its worker has ended, and it is about to be released. -/
  | leaving

/-- What is known of a live context. -/
structure Activity where
  /-- The thread that acts for the context; there is none while its task waits for one. -/
  owner : Option ThreadId
  role : Role
  parent : Option ContextId
  state : ContextState
  pursuit : Pursuit

/-- The activities of contexts. -/
abbrev Activities := ContextId → Option Activity

/-- How far the init of a package has come. -/
inductive Stage where
  | untouched
  | running
  | settled (outcome : Except Fault Unit)

/-- The parts of a machine on which clearance depends. -/
structure Scene where
  /-- The parents and the states of the live contexts. -/
  record : ContextId → Option (Option ContextId × ContextState)
  nextId : ContextId
  response : ResponseId → Response
  /-- The number of responses that have been opened. -/
  opened : Nat
  mark : String → Option InitMark
  stage : String → Stage
  /-- The packages whose init units have been called, and the contexts of the calls. -/
  inits : List (String × ContextId)

end Clearance

open Clearance

def Gate.stage (gate : Gate) (package : String) : Stage :=
  match gate.cells.get? package with
  | none | some .untouched => .untouched
  | some (.running _) => .running
  | some (.settled outcome) => .settled outcome

def Happening.initCall? : Happening → Option (String × ContextId)
  | .initCalled package context => some (package, context)
  | .started _ | .ended _ _ _ => none

def Arena.standing? (arena : Arena) (id : ContextId) : Option (Option ContextId × ContextState) :=
  (arena.record? id).map fun record => (record.parent, record.state)

/-- The scene of a machine, as far as its own arena goes. -/
def Machine.scene (machine : Machine) : Scene where
  record := (machine.arena Machine.ownArena).standing?
  nextId := (machine.arena Machine.ownArena).nextId
  response := machine.response
  opened := machine.responses.size
  mark := machine.gate.marks.get?
  stage := machine.gate.stage
  inits := machine.history.filterMap Happening.initCall?

namespace Clearance

/-- The names of the contexts that the calls of a package's init unit were made from. -/
def Scene.initsOf (scene : Scene) (package : String) : List (String × ContextId) :=
  scene.inits.filter fun call => call.1 = package

/-! ## What holds of activities -/

structure OpenCall.Expects (call : OpenCall) (response : Response) (task : Task) : Prop where
  reportsTo : task.response = call.response
  made : task.context.id ∈ call.made
  unended : task.context.id ∉ response.contributors
  ofUnit : ∃ worker, task.context.activity = some (call.unit, worker)
  sized : task.context.results.sizes = call.unit.returns.sizes

/-- What is known of a call and of its response, while contexts up to a name have been created. -/
structure OpenCall.Kept (call : OpenCall) (response : Response) (nextId : ContextId) : Prop where
  sound : call.unit.Sound
  returns : response.returns = call.unit.returns
  staged : response.staged.sizes = call.unit.returns.sizes
  counted : response.outstanding + response.contributors.length = call.unit.workers.length
  once : response.contributors.Nodup
  contributors : response.contributors ⊆ call.made
  older : ∀ id ∈ response.contributors, id < nextId
  dropped : call.dropped ⊆ response.contributors
  bounded : call.made.length ≤ call.unit.workers.length

/-- A pursuit of a context stands until a child of the context has ended. -/
def Pursuit.Awaits (response : ResponseId → Response) (child : ContextId) : Pursuit → Role → Prop
  | calling call, .worker task =>
    call.Expects (response call.response) task ∧ task.context.id = child
  | initializing package init _, .init other => package = other ∧ init = some child
  | _, _ => False

def Role.Suits (role : Role) (id : ContextId) (parent : Option ContextId) : Prop :=
  match role with
  | root => parent = none
  | worker task => task.context.id = id ∧ task.context.arena = Machine.ownArena ∧
      task.context.parent = parent ∧ parent.isSome = true
  | init _ => parent.isSome = true
  | leaving => True

def Link (activities : Activities) (child parent : ContextId) : Prop :=
  ∃ activity, activities child = some activity ∧ activity.parent = some parent

/-- A context is another one or descends from it. -/
def Descends (activities : Activities) : ContextId → ContextId → Prop :=
  Relation.ReflTransGen (Link activities)

/-- A context may start workers of a package: the package is initialized, or its init is under way
in a context from which this one descends. -/
def Cleared (scene : Scene) (activities : Activities) (package : String) (id : ContextId) : Prop :=
  scene.stage package = .settled (.ok ()) ∨
    ∃ mark, scene.mark package = some mark ∧ Descends activities id mark.context

def Pursuit.Holds (scene : Scene) (activities : Activities) (id : ContextId) : Pursuit → Prop
  | nothing => True
  | judging package context => (package, context) ∈ scene.inits
  | cleared package => Cleared scene activities package id
  | initializing package _ called =>
    scene.stage package = .running ∧ (called = false → scene.initsOf package = [])
  | calling call => call.response < scene.opened ∧
    call.Kept (scene.response call.response) scene.nextId ∧
    Cleared scene activities call.unit.package id

/-- Live contexts form trees, in which a parent is busy as long as a child has not ended. -/
structure Tree (scene : Scene) (activities : Activities) : Prop where
  known : ∀ context activity, activities context = some activity → context < scene.nextId
  recorded : ∀ context activity, activities context = some activity →
    scene.record context = some (activity.parent, activity.state)
  older : ∀ context activity parent, activities context = some activity →
    activity.parent = some parent → parent < context
  suits : ∀ context activity, activities context = some activity →
    activity.role.Suits context activity.parent
  leaving : ∀ context activity, activities context = some activity →
    activity.role = .leaving → activity.pursuit = .nothing
  awaited : ∀ context activity parent, activities context = some activity →
    activity.role ≠ .leaving → activity.parent = some parent →
      ∃ above, activities parent = some above ∧
        above.pursuit.Awaits scene.response context activity.role

/-- The inits that are under way, and those that have been. -/
structure Inits (scene : Scene) (activities : Activities) : Prop where
  /-- No two contexts initialize one package. -/
  alone : ∀ context other activity otherActivity package init otherInit called otherCalled,
    activities context = some activity → activities other = some otherActivity →
      activity.pursuit = .initializing package init called →
        otherActivity.pursuit = .initializing package otherInit otherCalled → context = other
  /-- The context of a mark is the one in which the init of the package is busy. -/
  marked : ∀ package mark, scene.mark package = some mark →
    ∃ activity, activities mark.context = some activity ∧ activity.role = .init package ∧
      activity.pursuit ≠ .nothing
  marks : ∀ context activity package, activities context = some activity →
    activity.role = .init package → activity.pursuit ≠ .nothing →
      ∃ mark, scene.mark package = some mark ∧ mark.context = context
  once : ∀ package, (scene.initsOf package).length ≤ 1
  untouched : ∀ package, scene.stage package = .untouched → scene.initsOf package = []
  called : ∀ package context, (package, context) ∈ scene.inits → context < scene.nextId ∧
    ∀ activity, activities context = some activity → activity.role = .init package
  noted : ∀ package mark, scene.mark package = some mark → (package, mark.context) ∈ scene.inits

/-- No two calls share a response. -/
def Apart (activities : Activities) : Prop :=
  ∀ context other activity otherActivity call otherCall, activities context = some activity →
    activities other = some otherActivity → activity.pursuit = .calling call →
      otherActivity.pursuit = .calling otherCall → call.response = otherCall.response →
        context = other

structure Sound (scene : Scene) (activities : Activities) : Prop where
  tree : Tree scene activities
  inits : Inits scene activities
  apart : Apart activities
  holds : ∀ context activity, activities context = some activity →
    activity.pursuit.Holds scene activities context

attribute [grind cases] Tree Inits

/-! ## Ancestors -/

/-- Whether a pursuit may await children. -/
def Pursuit.IsBusy : Pursuit → Prop
  | calling _ | initializing _ _ _ => True
  | nothing | judging _ _ | cleared _ => False

attribute [grind] Pursuit.IsBusy

variable {scene later : Scene} {activities changed : Activities} {context : ContextId}
  {activity new : Activity}

@[grind →]
theorem Pursuit.Awaits.isBusy {response : ResponseId → Response} {pursuit : Pursuit}
    {child : ContextId} {role : Role} (awaits : pursuit.Awaits response child role) :
    pursuit.IsBusy := by
  cases pursuit with
  | calling call => trivial
  | initializing package init called => trivial
  | _ => exact awaits.elim

/-- A child stays awaited as long as it is not among the contributors. -/
theorem Pursuit.Awaits.transfer {response changed : ResponseId → Response} {pursuit : Pursuit}
    {child : ContextId} {role : Role} (awaits : pursuit.Awaits response child role)
    (contributors : ∀ call, pursuit = .calling call →
      child ∉ (response call.response).contributors →
        child ∉ (changed call.response).contributors) :
    pursuit.Awaits changed child role := by
  cases pursuit with
  | calling call =>
      cases role with
      | worker task =>
          obtain ⟨expects, rfl⟩ := awaits
          exact ⟨{ expects with unended := contributors call rfl expects.unended }, rfl⟩
      | _ =>
          exact awaits.elim
  | initializing package init called =>
      cases role with
      | init other =>
          exact awaits
      | _ =>
          exact awaits.elim
  | _ =>
      exact awaits.elim

theorem Tree.busy_of_descends (tree : Tree scene activities)
    (found : activities context = some activity) (stays : activity.role ≠ .leaving)
    {ancestor : ContextId} (descends : Descends activities context ancestor) :
    ancestor = context ∨
      ∃ above, activities ancestor = some above ∧ above.pursuit.IsBusy := by
  induction descends with
  | refl =>
      exact .inl rfl
  | @tail middle parent _ link inductionHypothesis =>
      obtain ⟨between, isBetween, isParent⟩ := link
      have notLeaving : between.role ≠ .leaving := by
        rcases inductionHypothesis with rfl | ⟨above, isAbove, busy⟩
        · grind
        · grind
      obtain ⟨above, isAbove, awaits⟩ :=
        tree.awaited middle between parent isBetween notLeaving isParent
      exact .inr ⟨above, isAbove, awaits.isBusy⟩

theorem Descends.mono (links : ∀ child parent, Link activities child parent →
      Link changed child parent) {descendant ancestor : ContextId}
    (descends : Descends activities descendant ancestor) :
    Descends changed descendant ancestor :=
  Relation.ReflTransGen.mono links descendant ancestor descends

/-- Ancestors depend on nothing but parents. -/
theorem descends_update (found : activities context = some activity)
    (parent : new.parent = activity.parent) :
    Descends (Function.update activities context (some new)) = Descends activities := by
  have sameLinks : Link (Function.update activities context (some new)) = Link activities := by
    funext child above
    by_cases isContext : child = context
    · subst isContext
      simp [Link, found, parent]
    · simp [Link, isContext]
  simp only [Descends, sameLinks]

/-- Without a context that is busy with nothing, the others have the ancestors that they had. -/
theorem Tree.descends_without (tree : Tree scene activities) {released : ContextId}
    (wasThere : activities released = some activity) (nothing : activity.pursuit = .nothing)
    {other : Activity} (found : activities context = some other) (stays : other.role ≠ .leaving)
    (different : context ≠ released) {ancestor : ContextId}
    (descends : Descends activities context ancestor) :
    ancestor ≠ released ∧ Descends (Function.update activities released none) context ancestor := by
  have notReleased : ∀ {ancestor}, Descends activities context ancestor → ancestor ≠ released := by
    rintro ancestor descends rfl
    rcases tree.busy_of_descends found stays descends with same | ⟨above, isAbove, busy⟩
    · exact different same.symm
    · grind
  refine ⟨notReleased descends, ?_⟩
  induction descends with
  | refl =>
      exact .refl
  | tail before link inductionHypothesis =>
      obtain ⟨between, isBetween, isParent⟩ := link
      refine inductionHypothesis.tail ⟨between, ?_, isParent⟩
      rw [Function.update_of_ne (notReleased before)]
      exact isBetween

/-! ## What stays true -/

/-- Clearance stays as long as the package stays initialized, or marked in an ancestor. -/
theorem Cleared.mono {package : String} (cleared : Cleared scene activities package context)
    (stage : scene.stage package = .settled (.ok ()) → later.stage package = .settled (.ok ()))
    (mark : ∀ mark, scene.mark package = some mark → Descends activities context mark.context →
      later.mark package = some mark)
    (ancestors : ∀ ancestor, Descends activities context ancestor →
      Descends changed context ancestor) :
    Cleared later changed package context := by
  rcases cleared with initialized | ⟨above, isMark, descends⟩
  · exact .inl (stage initialized)
  · exact .inr ⟨above, mark above isMark descends, ancestors _ descends⟩

/-- What a context knows for the sake of its pursuit stays true if its clearance stays, its response
is left alone, and nobody else initializes its package. -/
theorem Pursuit.Holds.transfer {pursuit : Pursuit} (holds : pursuit.Holds scene activities context)
    (seen : ∀ call ∈ scene.inits, call ∈ later.inits)
    (inits : ∀ package init called, pursuit = .initializing package init called →
      later.stage package = scene.stage package ∧
        (called = false → later.initsOf package = scene.initsOf package))
    (calls : ∀ call, pursuit = .calling call → call.response < scene.opened →
      later.response call.response = scene.response call.response)
    (opened : scene.opened ≤ later.opened) (nextId : scene.nextId ≤ later.nextId)
    (cleared : ∀ package, Cleared scene activities package context →
      Cleared later changed package context) :
    pursuit.Holds later changed context := by
  cases pursuit with
  | nothing =>
      trivial
  | judging package above =>
      exact seen _ holds
  | cleared package =>
      exact cleared package holds
  | initializing package init called =>
      obtain ⟨sameStage, sameInits⟩ := inits package init called rfl
      refine ⟨sameStage.trans holds.1, fun uncalled => ?_⟩
      rw [sameInits uncalled]
      exact holds.2 uncalled
  | calling call =>
      obtain ⟨isOpened, kept, isCleared⟩ := holds
      refine ⟨Nat.lt_of_lt_of_le isOpened opened, ?_, cleared _ isCleared⟩
      rw [calls call rfl isOpened]
      exact { kept with older := fun id member => Nat.lt_of_lt_of_le (kept.older id member) nextId }

end WorkerMachine.Clearance
