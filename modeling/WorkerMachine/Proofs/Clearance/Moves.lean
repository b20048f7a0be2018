import WorkerMachine.Proofs.Clearance.Activities
/-!
# How activities change

Each atomic step of a machine changes the activity of one context: it is created or released, it
moves to another state, or it goes from one pursuit to another.  The other contexts keep what they
know, because a context gives up nothing on which others count: it does not leave a call or an init
before its children have ended.
-/

namespace WorkerMachine.Clearance

variable {scene later : Scene} {activities : Activities} {context : ContextId}
  {activity new : Activity}

theorem initsOf_cons_self {mark : String → Option InitMark} {package : String} :
    ({ scene with mark := mark, inits := (package, context) :: scene.inits } : Scene).initsOf
      package = (package, context) :: scene.initsOf package := by
  simp [Scene.initsOf]

theorem initsOf_cons_of_ne {mark : String → Option InitMark} {package other : String}
    (different : package ≠ other) :
    ({ scene with mark := mark, inits := (package, context) :: scene.inits } : Scene).initsOf
      other = scene.initsOf other := by
  simp [Scene.initsOf, different]

/-! ## A new activity of one context -/

section Change

variable (found : activities context = some activity)

include found

/-- The tree stays if the context keeps its parent and goes on awaiting its children. -/
theorem Tree.change (tree : Tree scene activities)
    (parent : new.parent = activity.parent) (role : new.role = activity.role ∨ new.role = .leaving)
    (leaving : new.role = .leaving → new.pursuit = .nothing)
    (nextId : later.nextId = scene.nextId)
    (others : ∀ other, other ≠ context → later.record other = scene.record other)
    (recorded : later.record context = some (new.parent, new.state))
    (children : ∀ child below, activities child = some below → below.role ≠ .leaving →
      below.parent = some context → new.pursuit.Awaits later.response child below.role)
    (strangers : ∀ child below stranger above, activities child = some below →
      activities stranger = some above → (child = context → new.role ≠ .leaving) →
        above.pursuit.Awaits scene.response child below.role →
          above.pursuit.Awaits later.response child below.role) :
    Tree later (Function.update activities context (some new)) := by
  constructor
  case known => grind
  case recorded => grind
  case older => grind
  case suits => grind [Role.Suits]
  case leaving => grind
  case awaited => grind

/-- The inits stay if the context does not begin one, and stays busy in the one that it belongs to. -/
theorem Inits.change (inits : Inits scene activities)
    (role : ∀ package, new.role = .init package ↔ activity.role = .init package)
    (pursuit : ∀ package, new.role = .init package →
      (new.pursuit = .nothing ↔ activity.pursuit = .nothing))
    (initializing : ∀ package init called, new.pursuit = .initializing package init called →
      ∃ init called, activity.pursuit = .initializing package init called)
    (nextId : later.nextId = scene.nextId) (mark : later.mark = scene.mark)
    (stage : later.stage = scene.stage) (calls : later.inits = scene.inits) :
    Inits later (Function.update activities context (some new)) := by
  have initsOf : later.initsOf = scene.initsOf := by
    unfold Scene.initsOf
    rw [calls]
  constructor
  case alone =>
    have alone := inits.alone
    clear inits
    grind
  case marked =>
    intro package above isMark
    rw [mark] at isMark
    obtain ⟨holder, isHolder, ofInit, busy⟩ := inits.marked package above isMark
    by_cases isContext : above.context = context <;> grind
  case marks => grind
  case once =>
    rw [initsOf]
    exact inits.once
  case untouched =>
    rw [initsOf, stage]
    exact inits.untouched
  case called => grind
  case noted =>
    rw [mark, calls]
    exact inits.noted

theorem Apart.change (apart : Apart activities)
    (calling : ∀ call, new.pursuit = .calling call →
      ∃ before, activity.pursuit = .calling before ∧ before.response = call.response) :
    Apart (Function.update activities context (some new)) := by
  unfold Apart at *
  grind

/-- What contexts know stays true if it does in the changed scene, and the new activity knows what it
needs to. -/
theorem Sound.holds_change (sound : Sound scene activities)
    (parent : new.parent = activity.parent) (own : new.pursuit.Holds later activities context)
    (others : ∀ other above, other ≠ context → activities other = some above →
      above.pursuit.Holds scene activities other → above.pursuit.Holds later activities other)
    (other : ContextId) (above : Activity)
    (isOther : Function.update activities context (some new) other = some above) :
    above.pursuit.Holds later (Function.update activities context (some new)) other := by
  have before : above.pursuit.Holds later activities other := by
    by_cases isContext : other = context
    · subst isContext
      rw [Function.update_self] at isOther
      cases isOther
      exact own
    · rw [Function.update_of_ne isContext] at isOther
      exact others other above isContext isOther (sound.holds other above isOther)
  refine before.transfer (fun _ => id) (fun _ _ _ _ => ⟨rfl, fun _ => rfl⟩) (fun _ _ _ => rfl)
    (Nat.le_refl _) (Nat.le_refl _) fun package isCleared => ?_
  refine isCleared.mono id (fun _ isMark _ => isMark) ?_
  rw [descends_update found parent]
  exact fun _ => id

/-- A context that is busy with a call or with an init is not leaving. -/
theorem Sound.not_leaving (sound : Sound scene activities) (busy : activity.pursuit ≠ .nothing) :
    activity.role ≠ .leaving :=
  fun leaving => busy (sound.tree.leaving context activity found leaving)

theorem Sound.awaits (sound : Sound scene activities) (child : ContextId) (below : Activity)
    (isChild : activities child = some below) (stays : below.role ≠ .leaving)
    (isParent : below.parent = some context) :
    activity.pursuit.Awaits scene.response child below.role := by
  obtain ⟨above, isAbove, awaits⟩ := sound.tree.awaited child below context isChild stays isParent
  rw [found] at isAbove
  cases isAbove
  exact awaits

/-- The tree stays if the context turns to a pursuit that goes on awaiting its children. -/
theorem Sound.tree_pursue (sound : Sound scene activities) {pursuit : Pursuit}
    (leaving : activity.role = .leaving → pursuit = .nothing)
    (record : later.record = scene.record) (nextId : later.nextId = scene.nextId)
    (response : later.response = scene.response)
    (children : ∀ child below, activities child = some below →
      activity.pursuit.Awaits scene.response child below.role →
        pursuit.Awaits scene.response child below.role) :
    Tree later (Function.update activities context (some { activity with pursuit := pursuit })) := by
  refine sound.tree.change found rfl (.inl rfl) leaving nextId (fun other _ => congrFun record other)
    ((congrFun record context).trans (sound.tree.recorded context activity found)) ?_ ?_
  · intro child below isChild stays isParent
    rw [response]
    exact children child below isChild (sound.awaits found child below isChild stays isParent)
  · rw [response]
    exact fun _ _ _ _ _ _ _ => id

end Change

namespace Sound

variable (sound : Sound scene activities)

include sound

/-! ## States and owners -/

/-- A context moves to another state, or another thread acts for it. -/
theorem revise (found : activities context = some activity)
    (role : new.role = activity.role) (parent : new.parent = activity.parent)
    (pursuit : new.pursuit = activity.pursuit)
    {record : ContextId → Option (Option ContextId × ContextState)}
    (others : ∀ other, other ≠ context → record other = scene.record other)
    (recorded : record context = some (new.parent, new.state)) :
    Sound { scene with record := record } (Function.update activities context (some new)) where
  tree := by
    have awaits := sound.awaits found
    refine sound.tree.change found parent (.inl role) ?_ rfl others recorded ?_
      fun _ _ _ _ _ _ _ => id
    · rw [role, pursuit]
      exact sound.tree.leaving context activity found
    · rw [pursuit]
      exact awaits
  inits := by
    refine sound.inits.change found ?_ ?_ ?_ rfl rfl rfl rfl
    · simp [role]
    · simp [pursuit]
    · rw [pursuit]
      exact fun _ init called same => ⟨init, called, same⟩
  apart := by
    refine sound.apart.change found ?_
    rw [pursuit]
    exact fun call same => ⟨call, same, rfl⟩
  holds := by
    refine sound.holds_change found parent ?_
      fun _ _ _ _ => id
    rw [pursuit]
    exact sound.holds context activity found

/-! ## Coming and going -/

theorem unborn : activities scene.nextId = none := by
  cases found : activities scene.nextId with
  | none =>
      rfl
  | some activity =>
      exact absurd (sound.tree.known _ _ found) (Nat.lt_irrefl _)

/-- A context is created, below none or below one that awaits it. -/
theorem enter (suits : new.role.Suits scene.nextId new.parent) (stays : new.role ≠ .leaving)
    (nothing : new.pursuit = .nothing)
    (awaited : ∀ parent, new.parent = some parent → ∃ above, activities parent = some above ∧
      above.pursuit.Awaits scene.response scene.nextId new.role) :
    Sound
      { scene with
        record := Function.update scene.record scene.nextId (some (new.parent, new.state))
        nextId := scene.nextId + 1 }
      (Function.update activities scene.nextId (some new)) := by
  have unborn := sound.unborn
  have tree := sound.tree
  have inits := sound.inits
  have apart := sound.apart
  -- Nobody has had the new name so far, so all lines of ancestors stay as they are.
  have links : ∀ child parent, Link activities child parent →
      Link (Function.update activities scene.nextId (some new)) child parent := by
    rintro child parent ⟨below, isBelow, isParent⟩
    refine ⟨below, ?_, isParent⟩
    rw [Function.update_of_ne]
    · exact isBelow
    · rintro rfl
      rw [unborn] at isBelow
      cases isBelow
  constructor
  case tree =>
    constructor
    case known => grind
    case recorded => grind
    case older =>
      have known := tree.known
      have older := tree.older
      clear sound inits apart links suits tree
      grind
    case suits => grind
    case leaving => grind
    case awaited => grind
  case inits =>
    constructor
    case alone =>
      have alone := inits.alone
      clear sound inits tree links
      grind
    case marked =>
      intro package above isMark
      obtain ⟨holder, isHolder, ofInit, busy⟩ := inits.marked package above isMark
      by_cases isNew : above.context = scene.nextId <;> grind
    case marks => grind
    case once => exact inits.once
    case untouched => exact inits.untouched
    case called => grind
    case noted => exact inits.noted
  case apart =>
    clear sound inits tree links
    unfold Apart at *
    grind
  case holds =>
    intro other above isOther
    by_cases isNew : other = scene.nextId
    · subst isNew
      rw [Function.update_self] at isOther
      cases isOther
      rw [nothing]
      trivial
    · rw [Function.update_of_ne isNew] at isOther
      exact (sound.holds other above isOther).transfer (fun _ => id)
        (fun _ _ _ _ => ⟨rfl, fun _ => rfl⟩) (fun _ _ _ => rfl) (Nat.le_refl _) (Nat.le_succ _)
        fun _ isCleared => isCleared.mono id (fun _ isMark _ => isMark) fun _ => Descends.mono links

/-- A context that is busy with nothing is released. -/
theorem leave (found : activities context = some activity) (nothing : activity.pursuit = .nothing) :
    Sound { scene with record := Function.update scene.record context none }
      (Function.update activities context none) := by
  have tree := sound.tree
  have inits := sound.inits
  have apart := sound.apart
  constructor
  case tree =>
    constructor
    case known => grind
    case recorded => grind
    case older => grind
    case suits => grind
    case leaving => grind
    case awaited => grind
  case inits =>
    constructor
    case alone =>
      have alone := inits.alone
      clear sound inits tree
      grind
    case marked =>
      intro package above isMark
      obtain ⟨holder, isHolder, ofInit, busy⟩ := inits.marked package above isMark
      by_cases isContext : above.context = context <;> grind
    case marks => grind
    case once => exact inits.once
    case untouched => exact inits.untouched
    case called => grind
    case noted => exact inits.noted
  case apart =>
    clear sound inits tree
    unfold Apart at *
    grind
  case holds =>
    intro other above isOther
    have different : other ≠ context := by
      rintro rfl
      rw [Function.update_self] at isOther
      cases isOther
    rw [Function.update_of_ne different] at isOther
    -- A line of ancestors goes through busy contexts only, so not through the one that leaves.
    by_cases leaving : above.role = .leaving
    · rw [tree.leaving other above isOther leaving]
      trivial
    · refine (sound.holds other above isOther).transfer (fun _ => id)
        (fun _ _ _ _ => ⟨rfl, fun _ => rfl⟩) (fun _ _ _ => rfl) (Nat.le_refl _) (Nat.le_refl _)
        fun package isCleared => isCleared.mono id (fun _ isMark _ => isMark) fun _ descends => ?_
      exact (tree.descends_without found nothing isOther leaving different descends).2

/-! ## Pursuits without children -/

/-- A context that has no children goes over to a pursuit for which it has what is needed. -/
theorem pursue (found : activities context = some activity) (stays : activity.role ≠ .leaving)
    (idle : ¬activity.pursuit.IsBusy) {pursuit : Pursuit} (stillIdle : ¬pursuit.IsBusy)
    (mark : ∀ package, activity.role = .init package →
      (pursuit = .nothing ↔ activity.pursuit = .nothing))
    (holds : pursuit.Holds scene activities context) :
    Sound scene
      (Function.update activities context (some { activity with pursuit := pursuit })) where
  tree := by
    refine sound.tree_pursue found (fun leaving => absurd leaving stays) rfl rfl rfl ?_
    exact fun _ _ _ awaits => absurd awaits.isBusy idle
  inits := by
    refine sound.inits.change found
      (fun _ => Iff.rfl) mark ?_ rfl rfl rfl rfl
    rintro package init called rfl
    exact absurd trivial stillIdle
  apart := by
    refine sound.apart.change found ?_
    rintro call rfl
    exact absurd trivial stillIdle
  holds := sound.holds_change found rfl holds
    fun _ _ _ _ => id

/-! ## Calls -/

theorem exists_call (found : activities context = some activity) {task : Task}
    (role : activity.role = .worker task) :
    ∃ parent above call, activity.parent = some parent ∧ activities parent = some above ∧
      above.pursuit = .calling call ∧ task.response = call.response ∧
      call.Expects (scene.response task.response) task ∧ task.response < scene.opened ∧
      call.Kept (scene.response task.response) scene.nextId ∧
      Cleared scene activities call.unit.package parent ∧ task.context.id = context := by
  have suits := sound.tree.suits context activity found
  rw [role] at suits
  obtain ⟨isId, _, _, hasParent⟩ := suits
  obtain ⟨parent, isParent⟩ := Option.isSome_iff_exists.mp hasParent
  obtain ⟨above, isAbove, awaits⟩ := sound.tree.awaited context activity parent found
    (by simp [role]) isParent
  rw [role] at awaits
  cases calling : above.pursuit with
  | calling call =>
      rw [calling] at awaits
      have holds := sound.holds parent above isAbove
      rw [calling] at holds
      obtain ⟨expects, _⟩ := awaits
      obtain ⟨opened, kept, cleared⟩ := holds
      rw [← expects.reportsTo] at expects opened kept
      exact ⟨parent, above, call, isParent, isAbove, calling, expects.reportsTo, expects, opened,
        kept, cleared, isId⟩
  | _ =>
      rw [calling] at awaits
      exact awaits.elim

theorem openCall (found : activities context = some activity) {unit : Callable}
    (cleared : activity.pursuit = .cleared unit.package) (unitSound : unit.Sound)
    {response : Response} (returns : response.returns = unit.returns)
    (staged : response.staged.sizes = unit.returns.sizes) (none : response.contributors = [])
    (outstanding : response.outstanding = unit.workers.length) :
    Sound
      { scene with
        response := Function.update scene.response scene.opened response
        opened := scene.opened + 1 }
      (Function.update activities context
        (some { activity with pursuit := .calling ⟨unit, scene.opened, [], []⟩ })) where
  tree := by
    have awaits := sound.awaits found
    refine sound.tree.change found rfl (.inl rfl) (fun leaving => ?_) rfl
      (fun _ _ => rfl) (sound.tree.recorded context activity found) ?_ ?_
    · exact (sound.not_leaving found (by simp [cleared]) leaving).elim
    · intro child below isChild stays isParent
      rw [cleared] at awaits
      exact (awaits child below isChild stays isParent).elim
    · intro child below stranger above _ isStranger _ awaitsChild
      refine awaitsChild.transfer fun call calling unended => ?_
      have holds := sound.holds stranger above isStranger
      rw [calling] at holds
      dsimp only
      rw [Function.update_of_ne (Nat.ne_of_lt holds.1)]
      exact unended
  inits := by
    refine sound.inits.change found (fun _ => Iff.rfl) ?_ (by simp) rfl rfl rfl rfl
    simp [cleared]
  apart := by
    -- The calls that are open already have responses of before.
    have before : ∀ other above call, activities other = some above →
        above.pursuit = .calling call → call.response ≠ scene.opened := by
      intro other above call isOther calling
      have holds := sound.holds other above isOther
      rw [calling] at holds
      exact Nat.ne_of_lt holds.1
    intro first second above otherAbove call otherCall isFirst isSecond calling otherCalling same
    by_cases firstIs : first = context <;> by_cases secondIs : second = context
    · exact firstIs.trans secondIs.symm
    · subst firstIs
      rw [Function.update_self] at isFirst
      rw [Function.update_of_ne secondIs] at isSecond
      cases isFirst
      cases calling
      exact absurd same.symm (before second otherAbove otherCall isSecond otherCalling)
    · subst secondIs
      rw [Function.update_self] at isSecond
      rw [Function.update_of_ne firstIs] at isFirst
      cases isSecond
      cases otherCalling
      exact absurd same (before first above call isFirst calling)
    · rw [Function.update_of_ne firstIs] at isFirst
      rw [Function.update_of_ne secondIs] at isSecond
      exact sound.apart first second above otherAbove call otherCall isFirst isSecond calling
        otherCalling same
  holds := by
    refine sound.holds_change found rfl ?_ fun other above _ _ holds => ?_
    · have holds := sound.holds context activity found
      rw [cleared] at holds
      refine ⟨Nat.lt_succ_self _, ?_, holds⟩
      constructor <;> simp [*]
    · refine holds.transfer (fun _ => id) (fun _ _ _ _ => ⟨rfl, fun _ => rfl⟩) ?_ (Nat.le_succ _)
        (Nat.le_refl _) fun _ => id
      exact fun call _ opened => Function.update_of_ne (Nat.ne_of_lt opened) _ _

/-- A call takes note of a context that is going to be made for it, or has been dropped. -/
theorem alterCall (found : activities context = some activity) {call altered : OpenCall}
    (calling : activity.pursuit = .calling call) (unit : altered.unit = call.unit)
    (response : altered.response = call.response) (made : call.made ⊆ altered.made)
    (kept : altered.Kept (scene.response call.response) scene.nextId) :
    Sound scene
      (Function.update activities context (some { activity with pursuit := .calling altered })) where
  tree := by
    refine sound.tree_pursue found (fun leaving => ?_) rfl rfl rfl ?_
    · exact (sound.not_leaving found (by simp [calling]) leaving).elim
    · intro child below isChild awaits
      rw [calling] at awaits
      cases role : below.role with
      | worker task =>
          rw [role] at awaits
          obtain ⟨expects, isId⟩ := awaits
          refine ⟨⟨expects.reportsTo.trans response.symm, made expects.made, ?_, ?_, ?_⟩, isId⟩
          · simp only [response]
            exact expects.unended
          · rw [unit]
            exact expects.ofUnit
          · rw [unit]
            exact expects.sized
      | _ =>
          rw [role] at awaits
          exact awaits.elim
  inits := by
    refine sound.inits.change found (fun _ => Iff.rfl) ?_ (by simp) rfl rfl rfl rfl
    simp [calling]
  apart := by
    refine sound.apart.change found ?_
    rintro _ ⟨⟩
    exact ⟨call, calling, response.symm⟩
  holds := by
    refine sound.holds_change found rfl ?_ fun _ _ _ _ => id
    have holds := sound.holds context activity found
    rw [calling] at holds
    obtain ⟨opened, _, cleared⟩ := holds
    refine ⟨?_, ?_, ?_⟩
    · rw [response]
      exact opened
    · rw [response]
      exact kept
    · rw [unit]
      exact cleared

/-- The contribution of a worker that has ended, or has been dropped, is taken in. -/
theorem contribute (found : activities context = some activity) {task : Task}
    (role : activity.role = .worker task) (nothing : activity.pursuit = .nothing)
    {response : Response} (returns : response.returns = (scene.response task.response).returns)
    (staged : response.staged.sizes = (scene.response task.response).staged.sizes)
    (contributors :
      response.contributors = context :: (scene.response task.response).contributors)
    (outstanding : response.outstanding + 1 = (scene.response task.response).outstanding) :
    Sound { scene with response := Function.update scene.response task.response response }
      (Function.update activities context (some { activity with role := .leaving })) := by
  obtain ⟨parent, caller, call, isParent, isCaller, calling, reportsTo, expects, opened, kept,
    cleared, isId⟩ := sound.exists_call found role
  constructor
  case tree =>
    refine sound.tree.change found rfl (.inr rfl) (fun _ => nothing) rfl (fun _ _ => rfl)
      (sound.tree.recorded context activity found) ?_ ?_
    · intro child below isChild stays isParent
      have awaits := sound.awaits found child below isChild stays isParent
      rw [nothing] at awaits
      exact awaits.elim
    · intro child below stranger above _ _ different awaits
      refine awaits.transfer fun other _ unended => ?_
      have notContext : child ≠ context := fun same => different same rfl
      dsimp only
      by_cases sameResponse : other.response = task.response
      · rw [sameResponse, Function.update_self, contributors]
        rw [sameResponse] at unended
        simp [notContext, unended]
      · rw [Function.update_of_ne sameResponse]
        exact unended
  case inits =>
    refine sound.inits.change found ?_ (by simp) ?_ rfl rfl rfl rfl
    · simp [role]
    · simp [nothing]
  case apart =>
    refine sound.apart.change found ?_
    simp [nothing]
  case holds =>
    refine sound.holds_change found rfl ?_ fun other above _ isOther holds => ?_
    · dsimp only
      rw [nothing]
      trivial
    · -- Only the caller of the task knows anything of the response that changes.
      by_cases isCall : ∃ its, above.pursuit = .calling its ∧ its.response = task.response
      · obtain ⟨its, itsCalling, itsResponse⟩ := isCall
        obtain rfl := sound.apart other parent above caller its call isOther isCaller itsCalling
          calling (itsResponse.trans reportsTo)
        rw [isCaller] at isOther
        cases isOther
        rw [calling] at itsCalling
        cases itsCalling
        rw [calling]
        refine ⟨by rw [← reportsTo]; exact opened, ?_, cleared⟩
        dsimp only
        rw [← reportsTo, Function.update_self]
        refine ⟨kept.sound, returns.trans kept.returns, staged.trans kept.staged, ?_, ?_, ?_, ?_, ?_,
          kept.bounded⟩
        · have counted := kept.counted
          rw [contributors, List.length_cons]
          omega
        · rw [contributors, List.nodup_cons]
          exact ⟨isId ▸ expects.unended, kept.once⟩
        · rw [contributors, List.cons_subset]
          exact ⟨isId ▸ expects.made, kept.contributors⟩
        · rw [contributors]
          intro member isMember
          rcases List.mem_cons.mp isMember with rfl | isOlder
          · exact sound.tree.known _ _ found
          · exact kept.older member isOlder
        · rw [contributors]
          exact fun member isMember => List.mem_cons_of_mem _ (kept.dropped isMember)
      · refine holds.transfer (fun _ => id) (fun _ _ _ _ => ⟨rfl, fun _ => rfl⟩) ?_ (Nat.le_refl _)
          (Nat.le_refl _) fun _ => id
        intro its itsCalling _
        exact Function.update_of_ne (fun same => isCall ⟨its, itsCalling, same⟩) _ _

theorem closeCall (found : activities context = some activity) {call : OpenCall}
    (calling : activity.pursuit = .calling call)
    (complete : call.made ⊆ (scene.response call.response).contributors) :
    Sound scene
      (Function.update activities context
        (some { activity with pursuit := .cleared call.unit.package })) where
  tree := by
    refine sound.tree_pursue found (fun leaving => ?_) rfl rfl rfl ?_
    · exact (sound.not_leaving found (by simp [calling]) leaving).elim
    · intro child below isChild awaits
      rw [calling] at awaits
      cases role : below.role with
      | worker task =>
          rw [role] at awaits
          exact absurd (complete awaits.1.made) awaits.1.unended
      | _ =>
          rw [role] at awaits
          exact awaits.elim
  inits := by
    refine sound.inits.change found (fun _ => Iff.rfl) ?_ (by simp) rfl rfl rfl rfl
    simp [calling]
  apart := sound.apart.change found (by simp)
  holds := by
    refine sound.holds_change found rfl ?_ fun _ _ _ _ => id
    have holds := sound.holds context activity found
    rw [calling] at holds
    exact holds.2.2

/-! ## Inits -/

theorem running (found : activities context = some activity) {package : String}
    {init : Option ContextId} {called : Bool}
    (initializing : activity.pursuit = .initializing package init called) :
    scene.stage package = .running := by
  have holds := sound.holds context activity found
  rw [initializing] at holds
  exact holds.1

/-- A context takes it upon itself to initialize a package that nobody has begun to initialize. -/
theorem claim (found : activities context = some activity) (stays : activity.role ≠ .leaving)
    (noInit : ∀ package, activity.role ≠ .init package) (nothing : activity.pursuit = .nothing)
    {package : String} (untouched : scene.stage package = .untouched) :
    Sound { scene with stage := Function.update scene.stage package .running }
      (Function.update activities context
        (some { activity with pursuit := .initializing package none false })) where
  tree := by
    refine sound.tree_pursue found (fun leaving => absurd leaving stays) rfl rfl rfl ?_
    rw [nothing]
    exact fun _ _ _ awaits => awaits.elim
  inits := by
    have inits := sound.inits
    have running : ∀ other above package init called, activities other = some above →
        above.pursuit = .initializing package init called → scene.stage package = .running :=
      fun _ _ _ _ _ isOther initializing => sound.running isOther initializing
    have initsOf : ∀ stage, ({ scene with stage := stage } : Scene).initsOf = scene.initsOf :=
      fun _ => rfl
    constructor
    case alone =>
      have alone := inits.alone
      clear sound inits
      grind
    case marked =>
      intro marked above isMark
      obtain ⟨holder, isHolder, ofInit, busy⟩ := inits.marked marked above isMark
      by_cases isContext : above.context = context <;> grind
    case marks => grind
    case once => exact inits.once
    case untouched =>
      intro other isUntouched
      rw [initsOf]
      refine inits.untouched other ?_
      by_cases same : other = package
      · subst same
        exact untouched
      · exact (Function.update_of_ne same _ _).symm.trans isUntouched
    case called => grind
    case noted => exact inits.noted
  apart := sound.apart.change found (by simp)
  holds := by
    refine sound.holds_change found rfl ?_ fun other above _ isOther holds => ?_
    · exact ⟨Function.update_self .., fun _ => sound.inits.untouched package untouched⟩
    · refine holds.transfer (fun _ => id) ?_ (fun _ _ _ => rfl) (Nat.le_refl _) (Nat.le_refl _) ?_
      · intro initialized init called initializing
        rw [initializing] at holds
        refine ⟨Function.update_of_ne ?_ _ _, fun _ => rfl⟩
        rintro rfl
        rw [holds.1] at untouched
        cases untouched
      · -- Nobody is cleared by the outcome of an init that has not begun.
        refine fun initialized isCleared => isCleared.mono (fun settled => ?_)
          (fun _ isMark _ => isMark) fun _ => id
        refine (Function.update_of_ne ?_ _ _).trans settled
        rintro rfl
        rw [settled] at untouched
        cases untouched

theorem proceed (found : activities context = some activity) {package : String}
    {init next : Option ContextId} {called nextCalled : Bool}
    (initializing : activity.pursuit = .initializing package init called)
    (children : ∀ child, init = some child → next = some child ∨ activities child = none)
    (uncalled : nextCalled = false → called = false) :
    Sound scene
      (Function.update activities context
        (some { activity with pursuit := .initializing package next nextCalled })) where
  tree := by
    refine sound.tree_pursue found (fun leaving => ?_) rfl rfl rfl ?_
    · exact (sound.not_leaving found (by simp [initializing]) leaving).elim
    · intro child below isChild awaits
      rw [initializing] at awaits
      cases role : below.role with
      | init other =>
          rw [role] at awaits
          obtain ⟨same, isInit⟩ := awaits
          refine ⟨same, (children child isInit).resolve_right ?_⟩
          rw [isChild]
          simp
      | _ =>
          rw [role] at awaits
          exact awaits.elim
  inits := by
    refine sound.inits.change found (fun _ => Iff.rfl) ?_ ?_ rfl rfl rfl rfl
    · simp [initializing]
    · rintro _ _ _ ⟨⟩
      exact ⟨init, called, initializing⟩
  apart := sound.apart.change found (by simp)
  holds := by
    refine sound.holds_change found rfl ?_ fun _ _ _ _ => id
    have holds := sound.holds context activity found
    rw [initializing] at holds
    exact ⟨holds.1, fun isUncalled => holds.2 (uncalled isUncalled)⟩

/-- The one who made the context of an init waits for it, while the init is running. -/
theorem exists_init (found : activities context = some activity) {package : String}
    (role : activity.role = .init package) :
    ∃ parent above called, activity.parent = some parent ∧ activities parent = some above ∧
      above.pursuit = .initializing package (some context) called ∧
      scene.stage package = .running := by
  have suits := sound.tree.suits context activity found
  rw [role] at suits
  obtain ⟨parent, isParent⟩ := Option.isSome_iff_exists.mp suits
  obtain ⟨above, isAbove, awaits⟩ := sound.tree.awaited context activity parent found
    (by simp [role]) isParent
  rw [role] at awaits
  cases initializing : above.pursuit with
  | initializing other child called =>
      rw [initializing] at awaits
      obtain ⟨rfl, rfl⟩ := awaits
      exact ⟨parent, above, called, isParent, isAbove, initializing,
        sound.running isAbove initializing⟩
  | _ =>
      rw [initializing] at awaits
      exact awaits.elim

/-- The init of a package that is under way is the only one. -/
theorem init_alone (found : activities context = some activity) {package : String}
    (role : activity.role = .init package) {claimer : ContextId} {above : Activity}
    (isClaimer : activities claimer = some above) {init : Option ContextId} {called : Bool}
    (initializing : above.pursuit = .initializing package init called) : init = some context := by
  obtain ⟨parent, upper, isCalled, _, isUpper, its, _⟩ := sound.exists_init found role
  obtain rfl := sound.inits.alone claimer parent above upper package init _ called isCalled
    isClaimer isUpper initializing its
  rw [isClaimer] at isUpper
  cases isUpper
  rw [initializing] at its
  cases its
  rfl

theorem inits_mark (found : activities context = some activity) {package : String}
    (role : activity.role = .init package)
    {claimer : ContextId} {above : Activity} (isClaimer : activities claimer = some above)
    (initializing : above.pursuit = .initializing package (some context) true)
    (uncalled : scene.initsOf package = []) (thread : ThreadId) :
    Inits
      { scene with
        mark := Function.update scene.mark package (some ⟨context, thread⟩)
        inits := (package, context) :: scene.inits }
      (Function.update activities context
        (some { activity with pursuit := .cleared package })) := by
  have inits := sound.inits
  have running := sound.running isClaimer initializing
  -- Whoever belongs to the init is awaited by its claimer, who awaits one context only.
  have only : ∀ other otherActivity, activities other = some otherActivity →
      otherActivity.role = .init package → other = context := by
    intro other otherActivity isOther ofInit
    have isInit := sound.init_alone isOther ofInit isClaimer initializing
    exact (Option.some.inj isInit).symm
  constructor
  case alone =>
    have alone := inits.alone
    clear sound inits only running initializing isClaimer role uncalled
    grind
  case marked =>
    intro other isMark isOther
    dsimp only at isOther
    by_cases same : other = package
    · subst same
      rw [Function.update_self] at isOther
      cases isOther
      exact ⟨_, Function.update_self .., role, by simp⟩
    · rw [Function.update_of_ne same] at isOther
      obtain ⟨holder, isHolder, ofInit, busy⟩ := inits.marked other isMark isOther
      by_cases isContext : isMark.context = context <;> grind
  case marks =>
    intro other otherActivity marked isOther ofInit busy
    dsimp only
    by_cases isContext : other = context
    · subst isContext
      rw [Function.update_self] at isOther
      cases isOther
      rw [role] at ofInit
      cases ofInit
      exact ⟨_, Function.update_self .., rfl⟩
    · rw [Function.update_of_ne isContext] at isOther
      rw [Function.update_of_ne]
      · exact inits.marks other otherActivity marked isOther ofInit busy
      · rintro rfl
        exact isContext (only other otherActivity isOther ofInit)
  case once =>
    intro other
    by_cases same : other = package
    · subst same
      rw [initsOf_cons_self, uncalled]
      exact Nat.le_refl 1
    · rw [initsOf_cons_of_ne (Ne.symm same)]
      exact inits.once other
  case untouched =>
    intro other isUntouched
    have different : other ≠ package := by
      rintro rfl
      rw [running] at isUntouched
      cases isUntouched
    rw [initsOf_cons_of_ne (Ne.symm different)]
    exact inits.untouched other isUntouched
  case called =>
    intro other asked member
    have known := sound.tree.known context activity found
    rcases List.mem_cons.mp member with same | before
    · cases same
      refine ⟨known, fun its isIts => ?_⟩
      rw [Function.update_self] at isIts
      cases isIts
      exact role
    · obtain ⟨isKnown, ofInit⟩ := inits.called other asked before
      refine ⟨isKnown, fun its isIts => ?_⟩
      by_cases isContext : asked = context <;> grind
  case noted =>
    intro other its isMark
    dsimp only at isMark
    by_cases same : other = package
    · subst same
      rw [Function.update_self] at isMark
      cases isMark
      exact List.mem_cons_self
    · rw [Function.update_of_ne same] at isMark
      exact List.mem_cons_of_mem _ (inits.noted other its isMark)

/-- The context of an init is marked, and its unit is about to be called. -/
theorem mark (found : activities context = some activity) {package : String}
    (role : activity.role = .init package) (nothing : activity.pursuit = .nothing)
    {claimer : ContextId} {above : Activity} (isClaimer : activities claimer = some above)
    (initializing : above.pursuit = .initializing package (some context) true)
    (uncalled : scene.initsOf package = []) (thread : ThreadId) :
    Sound
      { scene with
        mark := Function.update scene.mark package (some ⟨context, thread⟩)
        inits := (package, context) :: scene.inits }
      (Function.update activities context
        (some { activity with pursuit := .cleared package })) where
  tree := by
    refine sound.tree_pursue found (fun leaving => ?_) rfl rfl rfl ?_
    · rw [role] at leaving
      cases leaving
    · rw [nothing]
      exact fun _ _ _ awaits => awaits.elim
  inits := sound.inits_mark found role isClaimer initializing uncalled thread
  apart := sound.apart.change found (by simp)
  holds := by
    refine sound.holds_change found rfl ?_ fun other its _ isOther holds => ?_
    · exact .inr ⟨_, Function.update_self .., .refl⟩
    · refine holds.transfer (fun _ => List.mem_cons_of_mem _) ?_ (fun _ _ _ => rfl)
        (Nat.le_refl _) (Nat.le_refl _) fun cleared isCleared => ?_
      · intro initialized init called isInitializing
        refine ⟨rfl, fun isUncalled => initsOf_cons_of_ne ?_⟩
        rintro rfl
        obtain rfl := sound.inits.alone other claimer its above _ init _ called _ isOther isClaimer
          isInitializing initializing
        rw [isClaimer] at isOther
        cases isOther
        rw [initializing] at isInitializing
        cases isInitializing
        cases isUncalled
      · -- The package has had no mark before: its context would be this one, and busy.
        refine isCleared.mono id (fun its isMark _ => ?_) fun _ => id
        refine (Function.update_of_ne ?_ _ _).trans isMark
        rintro rfl
        obtain ⟨holder, isHolder, ofInit, busy⟩ := sound.inits.marked _ its isMark
        have isInit := sound.init_alone isHolder ofInit isClaimer initializing
        cases isInit
        rw [found] at isHolder
        cases isHolder
        exact busy nothing

theorem unmark (found : activities context = some activity) {package : String}
    (role : activity.role = .init package) (cleared : activity.pursuit = .cleared package) :
    Sound { scene with mark := Function.update scene.mark package none }
      (Function.update activities context (some { activity with pursuit := .nothing })) := by
  have notNothing : activity.pursuit ≠ .nothing := by simp [cleared]
  obtain ⟨own, isOwn, isContext⟩ := sound.inits.marks context activity package found role notNothing
  constructor
  case tree =>
    refine sound.tree_pursue found (fun _ => rfl) rfl rfl rfl ?_
    rw [cleared]
    exact fun _ _ _ awaits => awaits.elim
  case inits =>
    have inits := sound.inits
    constructor
    case alone =>
      have alone := inits.alone
      clear sound inits
      grind
    case marked =>
      intro other above isMark
      dsimp only at isMark
      have different : other ≠ package := by
        rintro rfl
        rw [Function.update_self] at isMark
        cases isMark
      rw [Function.update_of_ne different] at isMark
      obtain ⟨holder, isHolder, ofInit, busy⟩ := inits.marked other above isMark
      by_cases isContext : above.context = context <;> grind
    case marks =>
      intro other above package' isOther ofInit busy
      by_cases same : other = context
      · subst same
        rw [Function.update_self] at isOther
        cases isOther
        exact absurd rfl busy
      · rw [Function.update_of_ne same] at isOther
        obtain ⟨its, isIts, isContext'⟩ := inits.marks other above package' isOther ofInit busy
        refine ⟨its, (Function.update_of_ne ?_ _ _).trans isIts, isContext'⟩
        rintro rfl
        rw [isOwn] at isIts
        cases isIts
        exact same (isContext'.symm.trans isContext)
    case once => exact inits.once
    case untouched => exact inits.untouched
    case called => grind
    case noted =>
      intro other its isMark
      dsimp only at isMark
      have different : other ≠ package := by
        rintro rfl
        rw [Function.update_self] at isMark
        cases isMark
      rw [Function.update_of_ne different] at isMark
      exact inits.noted other its isMark
  case apart => exact sound.apart.change found (by simp)
  case holds =>
    refine sound.holds_change found rfl trivial fun other above different isOther holds => ?_
    by_cases leaving : above.role = .leaving
    · rw [sound.tree.leaving other above isOther leaving]
      trivial
    · -- Whoever is cleared by the mark descends from the marked context, which would be busy then.
      refine holds.transfer (fun _ => id) (fun _ _ _ _ => ⟨rfl, fun _ => rfl⟩) (fun _ _ _ => rfl)
        (Nat.le_refl _) (Nat.le_refl _) fun cleared' isCleared => ?_
      refine isCleared.mono id (fun its isMark descends => ?_) fun _ => id
      refine (Function.update_of_ne ?_ _ _).trans isMark
      rintro rfl
      rw [isOwn] at isMark
      cases isMark
      rw [isContext] at descends
      rcases sound.tree.busy_of_descends isOther leaving descends with same | ⟨its, isIts, busy⟩
      · exact different same.symm
      · rw [found] at isIts
        cases isIts
        rw [cleared] at busy
        exact busy

theorem settle (found : activities context = some activity)
    (noInit : ∀ package, activity.role ≠ .init package) {package : String} {called : Bool}
    (initializing : activity.pursuit = .initializing package none called)
    (outcome : Except Fault Unit) :
    Sound { scene with stage := Function.update scene.stage package (.settled outcome) }
      (Function.update activities context (some { activity with pursuit := .nothing })) := by
  have running := sound.running found initializing
  constructor
  case tree =>
    refine sound.tree_pursue found (fun _ => rfl) rfl rfl rfl ?_
    intro child below isChild awaits
    rw [initializing] at awaits
    cases role : below.role with
    | init other =>
        rw [role] at awaits
        cases awaits.2
    | _ =>
        rw [role] at awaits
        exact awaits.elim
  case inits =>
    have inits := sound.inits
    constructor
    case alone =>
      have alone := inits.alone
      clear sound inits
      grind
    case marked =>
      intro other above isMark
      obtain ⟨holder, isHolder, ofInit, busy⟩ := inits.marked other above isMark
      by_cases isContext : above.context = context <;> grind
    case marks => grind
    case once => exact inits.once
    case untouched =>
      intro other isUntouched
      refine inits.untouched other ?_
      dsimp only at isUntouched
      by_cases same : other = package
      · subst same
        rw [Function.update_self] at isUntouched
        cases isUntouched
      · exact (Function.update_of_ne same _ _).symm.trans isUntouched
    case called => grind
    case noted => exact inits.noted
  case apart => exact sound.apart.change found (by simp)
  case holds =>
    refine sound.holds_change found rfl trivial fun other above different isOther holds => ?_
    refine holds.transfer (fun _ => id) ?_ (fun _ _ _ => rfl) (Nat.le_refl _) (Nat.le_refl _) ?_
    · intro initialized init isCalled isInitializing
      refine ⟨Function.update_of_ne ?_ _ _, fun _ => rfl⟩
      rintro rfl
      exact different (sound.inits.alone other context above activity _ init none isCalled called
        isOther found isInitializing initializing)
    · -- As long as the init was running, nobody was cleared by its outcome.
      refine fun initialized isCleared => isCleared.mono (fun settled => ?_)
        (fun _ isMark _ => isMark) fun _ => id
      refine (Function.update_of_ne ?_ _ _).trans settled
      rintro rfl
      rw [running] at settled
      cases settled

end Sound

end WorkerMachine.Clearance
