import WorkerMachine.Proofs.Constants.Claims
import WorkerMachine.Proofs.Machine.Calmness
import WorkerMachine.Proofs.Process.Passing
import WorkerMachine.Proofs.Script.Following
/-!
# Constants are resolved together, and once

The constants that wait for a package are taken off its list at one moment, read at another, and given
their values or put back at a third.  If each of them can be read, all get the values that have been
read, unless they have values already; otherwise the first one that cannot be read tells what is wrong,
none gets a value, and all are back on the list, in front of those that have come in meanwhile.  A
constant that has a value keeps it, whatever threads do afterwards.
-/

namespace WorkerMachine

/-! ## What constants name -/

namespace Package

/-- A constant names a global of the package, of a type that constants can have, with a place inside a
memory of these sizes. -/
def Reaches (package : Package) (sizes : BankSizes) (constant : ConstantAttribute) : Prop :=
  ∃ entry bank, package.globals.get? constant.name = some entry ∧
    entry.type ∈ [DataType.boolean, .int, .float, .text] ∧ entry.type.bank? = some bank ∧
    entry.index < sizes.get bank

/-- Global memory holds this content at the place that a constant names. -/
def Holds (package : Package) (globals : RegisterFile) (constant : ConstantAttribute)
    (content : Constant) : Prop :=
  ∃ entry bank, package.globals.get? constant.name = some entry ∧ entry.type.bank? = some bank ∧
    globals.get? ⟨bank, entry.index⟩ = some content.toValue

/-- Why a constant cannot be read from a memory of these sizes. -/
inductive Refuses (package : Package) (sizes : BankSizes) (constant : ConstantAttribute) :
    Fault → Prop
  | unknown : package.globals.get? constant.name = none →
      Refuses package sizes constant (.unknownConstant constant.package constant.name)
  | unsupported {entry : GlobalVariable} : package.globals.get? constant.name = some entry →
      entry.type ∉ [DataType.boolean, .int, .float, .text] →
      Refuses package sizes constant
        (.unsupportedConstantType constant.package constant.name entry.type.name)
  | outOfRange {entry : GlobalVariable} {bank : Bank} :
      package.globals.get? constant.name = some entry →
      entry.type ∈ [DataType.boolean, .int, .float, .text] → entry.type.bank? = some bank →
      sizes.get bank ≤ entry.index →
      Refuses package sizes constant
        (.globalOutOfRange constant.package constant.name bank entry.index)

/-- The constants of a list that had no values have got what global memory held for them, and nothing
else has changed.  Attributes with one cell are copies of one attribute; the cell gets its value from
the first of them. -/
structure Fills (package : Package) (waiting : List ConstantAttribute) (globals : RegisterFile)
    (before after : Machine) : Prop where
  filled : ∀ earlier constant later, waiting = earlier ++ constant :: later →
    (∀ other ∈ earlier, other.cell = constant.cell → other.name = constant.name) →
    before.resolved.get? constant.cell = none →
    ∃ content, package.Holds globals constant content ∧
      after.resolved.get? constant.cell = some content
  kept : before.KeepsConstants after
  others : ∀ cell, (∀ constant ∈ waiting, constant.cell ≠ cell) →
    after.resolved.get? cell = before.resolved.get? cell

/-- What an attempt to resolve the constants of a package has come to.  They have been taken off the
list and read from global memory, and `left` is on the list when the attempt ends. -/
inductive Attempted (package : Package) (waiting : List ConstantAttribute) (globals : RegisterFile)
    (left : List ConstantAttribute) (before after : Machine) : Except Interruption Unit → Prop
  | resolved :
      (∀ constant ∈ waiting, package.Reaches globals.sizes constant) →
      package.Fills waiting globals before after →
      after.pendingOf package.name = left →
      (∀ other, other ≠ package.name → after.pendingOf other = before.pendingOf other) →
      Attempted package waiting globals left before after (.ok ())
  | refused {earlier later : List ConstantAttribute} {failing : ConstantAttribute} {fault : Fault} :
      waiting = earlier ++ failing :: later →
      (∀ constant ∈ earlier, package.Reaches globals.sizes constant) →
      ¬package.Reaches globals.sizes failing →
      package.Refuses globals.sizes failing fault →
      after.resolved = before.resolved →
      after.pendingOf package.name = waiting ++ left →
      (∀ other, other ≠ package.name → after.pendingOf other = before.pendingOf other) →
      Attempted package waiting globals left before after (.error (.fault fault))

/-! ## Reading -/

variable {package : Package} {globals : RegisterFile} {constant : ConstantAttribute}
  {waiting : List ConstantAttribute}

theorem isConstantType_iff {type : DataType} :
    type.isConstantType = true ↔ type ∈ [DataType.boolean, .int, .float, .text] := by
  cases type <;> simp [DataType.isConstantType]

theorem readConstant_of_reaches (reaches : package.Reaches globals.sizes constant) :
    ∃ content, readConstant package globals constant = .ok content ∧
      package.Holds globals constant content := by
  obtain ⟨entry, bank, found, ofType, ofBank, inside⟩ := reaches
  have isConstantType := isConstantType_iff.mpr ofType
  obtain ⟨value, isValue, sameBank⟩ := @RegisterFile.exists_get? globals ⟨bank, entry.index⟩ inside
  obtain ⟨content, isContent⟩ := Constant.exists_ofValue? isConstantType ofBank sameBank
  have isToValue : content.toValue = value := by
    cases value <;> cases isContent <;> rfl
  refine ⟨content, ?_, entry, bank, found, ofBank, isToValue ▸ isValue⟩
  unfold readConstant
  simp only [found, isConstantType, ofBank, isValue, isContent]

/-- Reading a constant that cannot be read tells why. -/
theorem readConstant_of_not_reaches (unreachable : ¬package.Reaches globals.sizes constant) :
    ∃ fault, readConstant package globals constant = .error fault ∧
      package.Refuses globals.sizes constant fault := by
  unfold readConstant
  cases found : package.globals.get? constant.name with
  | none => exact ⟨_, rfl, .unknown found⟩
  | some entry =>
    dsimp only
    cases ofType : entry.type.isConstantType with
    | false =>
      refine ⟨_, rfl, .unsupported found fun isConstantType => ?_⟩
      rw [isConstantType_iff.mpr isConstantType] at ofType
      cases ofType
    | true =>
      obtain ⟨bank, ofBank⟩ := DataType.exists_bank? ofType
      have outside : globals.sizes.get bank ≤ entry.index :=
        Nat.not_lt.mp fun inside => unreachable
          ⟨entry, bank, found, isConstantType_iff.mp ofType, ofBank, inside⟩
      have missing : globals.get? ⟨bank, entry.index⟩ = none :=
        RegisterFile.get?_of_not_lt (Nat.not_lt.mpr outside)
      rw [ofBank]
      dsimp only
      rw [missing]
      exact ⟨_, rfl, .outOfRange found (isConstantType_iff.mp ofType) ofBank outside⟩

def ReadFor (package : Package) (globals : RegisterFile) (constant : ConstantAttribute)
    (value : Nat × Constant) : Prop :=
  value.1 = constant.cell ∧ package.Holds globals constant value.2

/-- Constants are read in order, all of them or up to the first one that cannot be read. -/
theorem readConstants_cases (package : Package) (globals : RegisterFile)
    (waiting : List ConstantAttribute) :
    (∃ values, readConstants package globals waiting = .ok values ∧
        (∀ constant ∈ waiting, package.Reaches globals.sizes constant) ∧
        List.Forall₂ (package.ReadFor globals) waiting values) ∨
      ∃ fault earlier failing later, readConstants package globals waiting = .error fault ∧
        waiting = earlier ++ failing :: later ∧
        (∀ constant ∈ earlier, package.Reaches globals.sizes constant) ∧
        ¬package.Reaches globals.sizes failing ∧ package.Refuses globals.sizes failing fault := by
  induction waiting with
  | nil => exact .inl ⟨[], rfl, fun _ never => (nomatch never), .nil⟩
  | cons constant rest inductionHypothesis =>
    rw [readConstants]
    by_cases reaches : package.Reaches globals.sizes constant
    · obtain ⟨content, isRead, holds⟩ := readConstant_of_reaches reaches
      rw [isRead]
      dsimp only
      obtain ⟨values, areRead, allReach, readFor⟩ |
        ⟨fault, earlier, failing, later, fails, isSplit, earlierReach, unreachable, refuses⟩ :=
        inductionHypothesis
      · rw [areRead]
        refine .inl ⟨_, rfl, fun other member => ?_, .cons ⟨rfl, holds⟩ readFor⟩
        rcases List.mem_cons.mp member with rfl | inRest
        · exact reaches
        · exact allReach other inRest
      · rw [fails]
        refine .inr ⟨fault, constant :: earlier, failing, later, rfl, ?_, fun other member => ?_,
          unreachable, refuses⟩
        · rw [isSplit, List.cons_append]
        · rcases List.mem_cons.mp member with rfl | inEarlier
          · exact reaches
          · exact earlierReach other inEarlier
    · obtain ⟨fault, fails, refuses⟩ := readConstant_of_not_reaches reaches
      rw [fails]
      exact .inr ⟨fault, [], constant, rest, rfl, rfl, fun _ never => (nomatch never), reaches,
        refuses⟩

end Package

/-! ## Giving values -/

/-- Of several values for one cell the first one counts, and none if the cell has one. -/
theorem Machine.get?_resolveConstants (values : List (Nat × Constant))
    (machine : Machine) (cell : Nat) :
    (machine.resolveConstants values).resolved.get? cell =
      (machine.resolved.get? cell).or
        ((values.find? fun value => value.1 = cell).map Prod.snd) := by
  unfold Machine.resolveConstants
  induction values generalizing machine with
  | nil => simp
  | cons value rest inductionHypothesis =>
    have one : (machine.resolveConstant value.1 value.2).resolved.get? cell =
        (machine.resolved.get? cell).or (if value.1 = cell then some value.2 else none) := by
      unfold Machine.resolveConstant Table.contains
      split
      · next held =>
        split
        · next same =>
          obtain ⟨earlier, found⟩ := Option.isSome_iff_exists.mp held
          rw [← same, found]
          rfl
        · rw [Option.or_none]
      · next fresh =>
        rw [Table.get?_insert]
        split
        · next same =>
          rw [← same, Option.not_isSome_iff_eq_none.mp fresh]
          rfl
        · rw [Option.or_none]
    rw [List.foldl_cons, inductionHypothesis, one, Option.or_assoc, List.find?_cons]
    by_cases same : value.1 = cell <;> simp [same]

theorem Machine.pendingOf_resolveConstants (values : List (Nat × Constant))
    (machine : Machine) : (machine.resolveConstants values).pendingOf = machine.pendingOf := by
  unfold Machine.pendingOf
  rw [(machine.mild_resolveConstants values).pending]

namespace Package

variable {package : Package} {globals : RegisterFile} {constant : ConstantAttribute}
  {waiting : List ConstantAttribute} {values : List (Nat × Constant)}

theorem exists_find?_of_readFor (readFor : List.Forall₂ (package.ReadFor globals) waiting values)
    {earlier later : List ConstantAttribute} (isSplit : waiting = earlier ++ constant :: later)
    (copies : ∀ other ∈ earlier, other.cell = constant.cell → other.name = constant.name) :
    ∃ value, values.find? (fun value => value.1 = constant.cell) = some value ∧
      package.Holds globals constant value.2 := by
  induction readFor generalizing earlier with
  | nil => exact absurd isSplit (List.append_ne_nil_of_right_ne_nil _ (by simp)).symm
  | @cons first value rest others isRead _ inductionHypothesis =>
    obtain ⟨isCell, holds⟩ := isRead
    rw [List.find?_cons, isCell]
    by_cases sameCell : first.cell = constant.cell
    · have sameName : first.name = constant.name := by
        cases earlier with
        | nil => exact congrArg ConstantAttribute.name (List.cons.inj isSplit).1
        | cons other _ =>
          obtain ⟨rfl, _⟩ := List.cons.inj isSplit
          exact copies _ List.mem_cons_self sameCell
      refine ⟨value, by simp [sameCell], ?_⟩
      unfold Holds at holds ⊢
      rw [← sameName]
      exact holds
    · simp only [sameCell, decide_false]
      cases earlier with
      | nil => exact absurd (congrArg ConstantAttribute.cell (List.cons.inj isSplit).1) sameCell
      | cons other earlier =>
        exact inductionHypothesis (List.cons.inj isSplit).2
          fun copy member => copies copy (List.mem_cons_of_mem _ member)

theorem find?_eq_none_of_readFor (readFor : List.Forall₂ (package.ReadFor globals) waiting values)
    {cell : Nat} (unasked : ∀ constant ∈ waiting, constant.cell ≠ cell) :
    values.find? (fun value => value.1 = cell) = none := by
  induction readFor with
  | nil => rfl
  | cons isRead _ inductionHypothesis =>
    rw [List.find?_cons, isRead.1]
    simp only [unasked _ List.mem_cons_self, decide_false]
    exact inductionHypothesis fun other member => unasked other (List.mem_cons_of_mem _ member)

theorem fills_resolveConstants (readFor : List.Forall₂ (package.ReadFor globals) waiting values)
    (machine : Machine) :
    package.Fills waiting globals machine (machine.resolveConstants values) where
  filled := by
    intro earlier constant later isSplit copies unset
    obtain ⟨value, isFirst, holds⟩ := exists_find?_of_readFor readFor isSplit copies
    refine ⟨value.2, holds, ?_⟩
    rw [Machine.get?_resolveConstants, unset, isFirst]
    rfl
  kept := (machine.mild_resolveConstants values).constants
  others := by
    intro cell unasked
    rw [Machine.get?_resolveConstants, find?_eq_none_of_readFor readFor unasked, Option.map_none,
      Option.or_none]

end Package

/-! ## One attempt -/

theorem Machine.pendingOf_takePending (machine : Machine) (package asked : String) :
    (machine.takePending package).2.pendingOf asked =
      if package = asked then [] else machine.pendingOf asked := by
  unfold Machine.takePending Machine.pendingOf
  rw [Table.get?_insert]
  split <;> rfl

theorem Machine.pendingOf_restorePending (machine : Machine) (package asked : String)
    (waiting : List ConstantAttribute) :
    (machine.restorePending package waiting).pendingOf asked =
      if package = asked then waiting ++ machine.pendingOf package else machine.pendingOf asked := by
  unfold Machine.restorePending Machine.pendingOf
  rw [Table.get?_insert]
  split <;> rfl

/-- The last step of an attempt, and what the attempt comes to by it. -/
def concludeAttempt (package : Package) (waiting : List ConstantAttribute) :
    Except Fault (List (Nat × Constant)) → (Machine → Machine) × Except Interruption Unit
  | .ok values => (fun machine => machine.resolveConstants values, .ok ())
  | .error fault => (Machine.restorePending package.name waiting, .error (.fault fault))

theorem run_resolvePending (package : Package) :
    (resolvePending package).run =
      .step (fun _ => true) (fun machine => (machine.takePending package.name).2) fun taking =>
        .step (fun _ => true) id fun reading =>
          .step (fun _ => true)
            (concludeAttempt package (taking.pendingOf package.name)
              (readConstants package reading.globals (taking.pendingOf package.name))).1
            fun _ => .done (concludeAttempt package (taking.pendingOf package.name)
              (readConstants package reading.globals (taking.pendingOf package.name))).2 := by
  unfold resolvePending
  change Process.step _ _ _ = _
  refine congrArg (Process.step _ _) (funext fun taking => ?_)
  change Process.step _ _ _ = _
  refine congrArg (Process.step _ _) (funext fun reading => ?_)
  change (match readConstants package reading.globals (taking.pendingOf package.name) with
    | .ok values => (Effect.modify fun machine => machine.resolveConstants values : Effect Unit)
    | .error fault => do
      Effect.modify (Machine.restorePending package.name (taking.pendingOf package.name))
      Effect.fail fault).run = _
  cases readConstants package reading.globals (taking.pendingOf package.name) with
  | ok values => rfl
  | error fault => rfl

namespace Package

/-- What has been read decides what the last step of an attempt does. -/
theorem attempted_of_conclude (package : Package) (waiting : List ConstantAttribute)
    (globals : RegisterFile) (before : Machine) :
    package.Attempted waiting globals (before.pendingOf package.name) before
      ((concludeAttempt package waiting (readConstants package globals waiting)).1 before)
      (concludeAttempt package waiting (readConstants package globals waiting)).2 := by
  obtain ⟨values, isRead, allReach, readFor⟩ |
    ⟨fault, earlier, failing, later, fails, isSplit, earlierReach, unreachable, refuses⟩ :=
    readConstants_cases package globals waiting
  · rw [isRead]
    have samePending := before.pendingOf_resolveConstants values
    exact .resolved allReach (fills_resolveConstants readFor before)
      (congrFun samePending package.name) fun other _ => congrFun samePending other
  · rw [fails]
    refine .refused isSplit earlierReach unreachable refuses rfl ?_ fun other different => ?_
    · exact (before.pendingOf_restorePending _ _ _).trans (if_pos rfl)
    · exact (before.pendingOf_restorePending _ _ _).trans (if_neg (Ne.symm different))

/-- A machine on which the waiting constants have been taken differs in nothing else that an attempt
comes to. -/
theorem Attempted.of_taken {package : Package} {waiting left : List ConstantAttribute}
    {globals : RegisterFile} {machine after : Machine} {outcome : Except Interruption Unit}
    (attempted : package.Attempted waiting globals left (machine.takePending package.name).2 after
      outcome) :
    package.Attempted waiting globals left machine after outcome := by
  have spared : ∀ other, other ≠ package.name →
      (machine.takePending package.name).2.pendingOf other = machine.pendingOf other :=
    fun other different => (machine.pendingOf_takePending _ _).trans (if_neg (Ne.symm different))
  cases attempted with
  | resolved allReach fills isLeft others =>
    exact .resolved allReach ⟨fills.filled, fills.kept, fills.others⟩ isLeft
      fun other different => (others other different).trans (spared other different)
  | refused isSplit earlierReach unreachable refuses sameValues isLeft others =>
    exact .refused isSplit earlierReach unreachable refuses sameValues isLeft
      fun other different => (others other different).trans (spared other different)

/-- An attempt with nothing beside it comes to an end. -/
theorem exists_runAlone_resolvePending (package : Package) (machine : Machine) :
    ∃ outcome after, (resolvePending package).run.runAlone machine = some (outcome, after) ∧
      package.Attempted (machine.pendingOf package.name) machine.globals [] machine after outcome := by
  have isEmpty : (machine.takePending package.name).2.pendingOf package.name = [] :=
    (machine.pendingOf_takePending _ _).trans (if_pos rfl)
  have concluded := package.attempted_of_conclude (machine.pendingOf package.name) machine.globals
    (machine.takePending package.name).2
  rw [isEmpty] at concluded
  refine ⟨_, _, ?_, concluded.of_taken⟩
  rw [run_resolvePending]
  rfl

end Package

/-! ## Attempts beside other threads -/

section Crowds

variable {Answer : Type} {arrivals : Arrivals ThreadId Machine Answer} {thread : ThreadId}
  {crowd later : Crowd ThreadId Machine Answer}

/-- Beside other threads, an attempt takes the constants at one moment, reads them at a later one, and
concludes at a third. -/
theorem Package.attempted_of_passes {package : Package}
    {follow : Except Interruption Unit → Work Answer} {outcome : Except Interruption Unit}
    (passes : Crowd.Passes arrivals thread follow outcome later (resolvePending package).run crowd) :
    ∃ taking taken reading concluding concluded : Crowd ThreadId Machine Answer,
      crowd.Leads arrivals taking ∧ taking.Leads arrivals taken ∧ taken.Leads arrivals reading ∧
      reading.Leads arrivals concluding ∧ concluding.Leads arrivals concluded ∧
      concluded.Leads arrivals later ∧
      taken.state = (taking.state.takePending package.name).2 ∧
      package.Attempted (taking.state.pendingOf package.name) reading.state.globals
        (concluding.state.pendingOf package.name) concluding.state concluded.state outcome := by
  rw [run_resolvePending] at passes
  obtain ⟨taking, taken, leadsTaking, leadsTaken, isTaken, passes⟩ := passes.exists_step
  obtain ⟨reading, looked, leadsReading, leadsLooked, _, passes⟩ := passes.exists_step
  obtain ⟨concluding, concluded, leadsConcluding, leadsConcluded, isConcluded, passes⟩ :=
    passes.exists_step
  refine ⟨taking, taken, reading, concluding, concluded, leadsTaking, leadsTaken, leadsReading,
    leadsLooked.trans leadsConcluding, leadsConcluded, passes.leads, isTaken, ?_⟩
  rw [isConcluded, ← passes.eq_of_done]
  exact package.attempted_of_conclude _ _ _

end Crowds

/-! ## Values that stay -/

/-- A process of a host that does what may concern constants, in any order: it makes calls by name,
makes sure that packages are initialized, attempts to resolve constants, puts more of them on lists,
and writes what it likes into global memory. -/
inductive Station.UsesConstants (station : Station) {Answer : Type} : Work Answer → Prop
  | ended (answer : Answer) : UsesConstants station (.done answer)
  | called {follow : Except Interruption (List Value) → Work Answer}
      (package function : String) (arguments : List Value) :
      (∀ outcome, UsesConstants station (follow outcome)) →
      UsesConstants station ((station.callNamed package function arguments).run.bind follow)
  | initialized {follow : Except Interruption Unit → Work Answer} (package : Package)
      (caller : Context) :
      (∀ outcome, UsesConstants station (follow outcome)) →
      UsesConstants station ((station.ensureInitialized package caller).run.bind follow)
  | attempted {follow : Except Interruption Unit → Work Answer} (package : Package) :
      (∀ outcome, UsesConstants station (follow outcome)) →
      UsesConstants station ((resolvePending package).run.bind follow)
  | deferred {follow : Unit → Work Answer} (constant : ConstantAttribute) :
      UsesConstants station (follow ()) →
      UsesConstants station ((Process.modify (Machine.deferConstant constant)).bind follow)
  | wrote {follow : Unit → Work Answer} (change : RegisterFile → RegisterFile) :
      UsesConstants station (follow ()) →
      UsesConstants station ((Process.modify fun machine =>
        { machine with globals := change machine.globals }).bind follow)

section Keeping

variable {Thread : Type} [DecidableEq Thread] {thread : Thread} {first : Machine}

/-- The discipline of keeping the values that constants have on a machine. -/
abbrev Discipline.keepingConstants (Thread : Type) (first : Machine) :
    Discipline Thread Machine Unit :=
  .keeping Thread first.KeepsConstants

omit [DecidableEq Thread] in
theorem Discipline.keepingConstants_toleratesCalm (first : Machine) (thread : Thread) :
    (keepingConstants Thread first).ToleratesCalm thread () where
  tolerates := fun _ _ _ kept _ calm => ⟨trivial, Machine.KeepsConstants.trans kept calm.constants⟩
  excuses := fun _ _ _ _ => trivial

theorem Machine.resolved_startTask (task : Task) (machine : Machine) :
    (machine.startTask task).2.resolved = machine.resolved := by
  unfold Machine.startTask
  split
  · next moved => exact congrArg (fun answer => answer.2.resolved) moved.symm
  · next moved => exact congrArg (fun answer => answer.2.resolved) moved.symm

omit [DecidableEq Thread] in
theorem Discipline.keepingConstants_toleratesTasks (first : Machine) (thread : Thread) :
    (keepingConstants Thread first).ToleratesTasks thread () where
  starts := fun machine _ task kept _ => ⟨trivial, Machine.KeepsConstants.trans kept
    (Machine.keepsConstants_of_same (machine.resolved_startTask task))⟩
  ends := fun _ _ _ _ _ kept _ => ⟨trivial, Machine.KeepsConstants.trans kept
    (Machine.keepsConstants_of_same rfl)⟩

theorem Setup.tasks_keepConstants (setup : Setup) (bodies : Table BodyKey (List Script.Instruction))
    (number : ThreadId) (depth : Nat) :
    (setup.station (Script.interpreter bodies) number depth).TasksStay
      (.keepingConstants Thread first) thread () := by
  have tolerance := Discipline.keepingConstants_toleratesCalm first thread
  exact Script.tasks_stay bodies setup number (fun _ => True) (fun _ _ => tolerance.mild)
    (fun _ tasks _ _ => Station.gates_stay_calm tolerance (tasks () trivial))
    (fun _ _ => tolerance.stores)
    (fun _ carries _ _ task => Station.carryOut_stays tolerance.mild
      (Discipline.keepingConstants_toleratesTasks first thread) (carries () trivial) task)
    depth () trivial

theorem Station.UsesConstants.stays {Answer : Type} {station : Station} {process : Work Answer}
    (uses : station.UsesConstants process)
    (tasks : station.TasksStay (.keepingConstants Thread first) thread ()) :
    process.Stays (.keepingConstants Thread first) thread () fun _ => True := by
  have tolerance := Discipline.keepingConstants_toleratesCalm first thread
  induction uses with
  | ended answer => exact Process.stays_done trivial
  | called package function arguments _ inductionHypothesis =>
    exact (callNamed_stays tolerance.mild tasks (gates_stay_calm tolerance tasks) package function
      arguments).run.bind fun outcome _ => inductionHypothesis outcome
  | initialized package caller _ inductionHypothesis =>
    exact (ensureInitialized_stays tolerance tasks package caller).run.bind
      fun outcome _ => inductionHypothesis outcome
  | attempted package _ inductionHypothesis =>
    exact (resolvePending_stays_calm tolerance package).run.bind
      fun outcome _ => inductionHypothesis outcome
  | deferred constant _ inductionHypothesis =>
    exact (Process.calmly_modify tolerance fun _ => Machine.calm_of_same rfl rfl (.inl rfl)).bind
      fun _ _ => inductionHypothesis
  | wrote change _ inductionHypothesis =>
    exact (Process.calmly_modify tolerance fun _ => Machine.calm_of_same rfl rfl (.inl rfl)).bind
      fun _ _ => inductionHypothesis

end Keeping

/-- Whatever hosts and the threads that are started for them do, constants keep their values. -/
theorem Crowd.keepsConstants_of_leads {Answer : Type} {setup : Setup}
    {bodies : Table BodyKey (List Script.Instruction)} {depth : Nat}
    {crowd later : Crowd ThreadId Machine (Option Answer)}
    (hosts : ∀ thread process, crowd.process thread = some process →
      (setup.station (Script.interpreter bodies) thread depth).UsesConstants process)
    (leads : crowd.Leads (setup.Starts (Script.interpreter bodies) depth) later) :
    crowd.state.KeepsConstants later.state := by
  have welcoming : Crowd.Welcoming (.keepingConstants ThreadId crowd.state) ()
      (fun _ _ _ => True) (setup.Starts (Script.interpreter bodies) depth :
        Arrivals ThreadId Machine (Option Answer)) :=
    Setup.starts_welcoming_mild
      (fun thread => (Discipline.keepingConstants_toleratesCalm crowd.state thread).mild)
      fun thread => setup.tasks_keepConstants bodies thread depth
  have orderly : crowd.Orderly (.keepingConstants ThreadId crowd.state) () fun _ _ _ => True := by
    refine ⟨fun _ => (), Machine.KeepsConstants.refl _, fun thread process holds => ?_,
      fun _ _ => rfl⟩
    exact Process.Follows.weaken ((hosts thread process holds).stays
      (setup.tasks_keepConstants bodies thread depth)) fun _ _ _ => trivial
  obtain ⟨_, orderlyThen⟩ := orderly.leads welcoming leads
  exact orderlyThen.fits

/-- Constants are resolved all or none, and once.  An attempt with nothing beside it ends: if each
waiting constant names a global of a constant type inside global memory, the list is emptied and each
attribute that was unset gets the content of its slot; otherwise the attempt ends with what is wrong
with the first one that does not, no attribute is set and the list is as before.  Beside other threads
the constants are taken, read and concluded upon at three moments, and are put back in front of those
that have come in meanwhile.  And in any run, an attribute that has a value keeps it. -/
theorem constants_resolve_together_once (package : Package) :
    (∀ machine : Machine, ∃ outcome after,
      (resolvePending package).run.runAlone machine = some (outcome, after) ∧
        package.Attempted (machine.pendingOf package.name) machine.globals [] machine after
          outcome) ∧
    (∀ {Answer : Type} {arrivals : Arrivals ThreadId Machine Answer} {thread : ThreadId}
      {follow : Except Interruption Unit → Work Answer} {outcome : Except Interruption Unit}
      {crowd later : Crowd ThreadId Machine Answer},
      Crowd.Passes arrivals thread follow outcome later (resolvePending package).run crowd →
        ∃ taking taken reading concluding concluded : Crowd ThreadId Machine Answer,
          crowd.Leads arrivals taking ∧ taking.Leads arrivals taken ∧
          taken.Leads arrivals reading ∧ reading.Leads arrivals concluding ∧
          concluding.Leads arrivals concluded ∧ concluded.Leads arrivals later ∧
          taken.state = (taking.state.takePending package.name).2 ∧
          package.Attempted (taking.state.pendingOf package.name) reading.state.globals
            (concluding.state.pendingOf package.name) concluding.state concluded.state outcome) ∧
    ∀ {Answer : Type} {setup : Setup} {bodies : Table BodyKey (List Script.Instruction)}
      {depth : Nat} {crowd later : Crowd ThreadId Machine (Option Answer)},
      (∀ thread process, crowd.process thread = some process →
        (setup.station (Script.interpreter bodies) thread depth).UsesConstants process) →
      crowd.Leads (setup.Starts (Script.interpreter bodies) depth) later →
      ∀ cell value, crowd.state.resolved.get? cell = some value →
        later.state.resolved.get? cell = some value :=
  ⟨package.exists_runAlone_resolvePending, Package.attempted_of_passes,
    Crowd.keepsConstants_of_leads⟩

def Package.answering : Package :=
  { Package.ofName "settings" with globals := .ofList [("answer", ⟨0, .int⟩)] }

def Machine.awaitingAnswer : Machine :=
  { Machine.start ⟨.empty, { longs := 1 }⟩ .empty with
    pending := .ofList [("settings", [⟨"settings", "answer", 0⟩, ⟨"settings", "answer", 0⟩])] }

def RegisterFile.otherAnswer : RegisterFile := { longs := #[42] }

/-- What a host does after a first attempt: it overwrites global memory and attempts it again. -/
def Package.attemptAgain (package : Package) : Work (Option (Except Interruption Unit)) :=
  (Process.modify fun machine : Machine => { machine with globals := .otherAnswer }).bind fun _ =>
    (resolvePending package).run.bind fun outcome => .done (some outcome)

def Crowd.attemptingTwice : Crowd ThreadId Machine (Option (Except Interruption Unit)) where
  state := .awaitingAnswer
  process := fun thread =>
    if thread = Session.hostThread then
      some ((resolvePending .answering).run.bind fun _ => Package.answering.attemptAgain)
    else none

/-- The first attempt sets both copies, and what is written and attempted later does not change them. -/
theorem answer_resolved_once :
    let setup : Setup := ⟨⟨.empty, { longs := 1 }⟩, .threadPool true Policy.usualThreadName 2, .full⟩
    let starts : Arrivals ThreadId Machine (Option (Except Interruption Unit)) :=
      setup.Starts (Script.interpreter .empty) 9
    ∃ middle later, Crowd.attemptingTwice.Leads starts middle ∧ middle.Leads starts later ∧
      middle.state.pendingOf "settings" = [] ∧ middle.state.resolved.get? 0 = some (.int 0) ∧
      later.state.globals.get? ⟨.int, 0⟩ = some (.int 42) ∧
      later.state.resolved.get? 0 = some (.int 0) := by
  intro setup starts
  obtain ⟨alone, beside, once⟩ := constants_resolve_together_once .answering
  obtain ⟨outcome, after, ran, _⟩ := alone .awaitingAnswer
  have begun : Crowd.attemptingTwice.process Session.hostThread =
      some ((resolvePending .answering).run.bind fun _ => Package.answering.attemptAgain) := rfl
  have passes : Crowd.Passes starts Session.hostThread _ outcome _ (resolvePending .answering).run
      .attemptingTwice := Crowd.passes_of_runAlone begun ran
  -- What the host does next is known, and nobody else is there.
  have hosts : ∀ thread process, (Crowd.attemptingTwice.after Session.hostThread after
      Package.answering.attemptAgain).process thread = some process →
        (setup.station (Script.interpreter .empty) thread 9).UsesConstants process := by
    intro thread process holds
    by_cases isHost : thread = Session.hostThread
    · subst isHost
      obtain rfl : Package.answering.attemptAgain = process := by
        simpa [Crowd.after] using holds
      have attempts : (setup.station (Script.interpreter .empty) Session.hostThread 9).UsesConstants
          ((resolvePending .answering).run.bind fun outcome => .done (some outcome)) :=
        .attempted _ fun outcome => .ended (some outcome)
      unfold Package.attemptAgain
      exact .wrote (fun _ => .otherAnswer) attempts
    · simp [Crowd.after, Crowd.attemptingTwice, isHost] at holds
  obtain ⟨answer, last, ranAgain, isOther⟩ : ∃ answer last,
      Package.answering.attemptAgain.runAlone after = some (answer, last) ∧
        last.globals.get? ⟨.int, 0⟩ = some (.int 42) := by
    cases ran
    exact ⟨_, _, rfl, rfl⟩
  have begunAgain : (Crowd.attemptingTwice.after Session.hostThread after
      Package.answering.attemptAgain).process Session.hostThread =
        some (Package.answering.attemptAgain.bind .done) := by
    rw [Process.bind_done]
    simp [Crowd.after]
  have passesAgain : Crowd.Passes starts Session.hostThread .done answer _ _ _ :=
    Crowd.passes_of_runAlone begunAgain ranAgain
  obtain ⟨_, _, _, _, _, leadsTaking, leadsTaken, leadsReading, leadsConcluding, leadsConcluded,
    leadsMiddle, _⟩ := beside passes
  have leads := ((((leadsTaking.trans leadsTaken).trans leadsReading).trans leadsConcluding).trans
    leadsConcluded).trans leadsMiddle
  have isSet : after.pendingOf "settings" = [] ∧ after.resolved.get? 0 = some (.int 0) := by
    cases ran
    exact ⟨rfl, rfl⟩
  exact ⟨_, _, leads, passesAgain.leads, isSet.1, isSet.2, isOther,
    once hosts passesAgain.leads 0 _ isSet.2⟩

end WorkerMachine
