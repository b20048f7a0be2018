import Mathlib.Data.List.Forall2
import WorkerMachine.Manifest.Loading
import WorkerMachine.Proofs.Registers.Layouts
/-!
# What loading makes of declarations

A manifest declares units, the init unit of a package first and its functions after it.  Loading
builds a unit from each declaration and checks the instructions of its workers.  The units go to the
tables of their packages, and the bodies to one table for all units, under the names that the
declaration has.
-/

namespace WorkerMachine

/-- Of several pairs of a key the last one decides its value. -/
theorem Table.get?_ofList {Key Entry : Type} [DecidableEq Key] (pairs : List (Key × Entry))
    (key : Key) :
    (ofList pairs).get? key = (pairs.reverse.find? fun pair => pair.1 = key).map Prod.snd := by
  have whatever : ∀ table : Table Key Entry,
      (pairs.foldl (fun table pair => table.insert pair.1 pair.2) table).get? key =
        ((pairs.reverse.find? fun pair => pair.1 = key).map Prod.snd).or (table.get? key) := by
    induction pairs with
    | nil =>
        intro table
        rfl
    | cons first rest inductionHypothesis =>
        intro table
        rw [List.foldl_cons, inductionHypothesis, List.reverse_cons, List.find?_append,
          get?_insert]
        cases rest.reverse.find? fun pair => pair.1 = key with
        | some pair =>
            rfl
        | none =>
            by_cases isFirst : first.1 = key <;> simp [isFirst]
  have found := whatever empty
  rw [get?_empty, Option.or_none] at found
  exact found

namespace Manifest

/-- A unit as it is declared, with the names under which its bodies are recorded. -/
structure Declaration where
  package : String
  name : String
  kind : UnitKind
  entry : UnitEntry

namespace Declaration

def Builds (declaration : Declaration) (unit : Callable) : Prop :=
  Callable.build declaration.package declaration.name declaration.kind declaration.entry.params
    declaration.entry.returns
    (declaration.entry.workers.map fun worker => (worker.name, worker.locals)) = .ok unit

/-- Every instruction is accepted for the registers of its own worker. -/
def Checked (declaration : Declaration) (globals : BankSizes) (unit : Callable) : Prop :=
  ∀ pair ∈ unit.workers.zip declaration.entry.workers, ∀ instruction ∈ pair.2.instructions,
    (⟨pair.1.locals, unit.returns.sizes, globals⟩ : Script.Footprint).check instruction = .ok ()

def body? (declaration : Declaration) (key : BodyKey) : Option (List Script.Instruction) :=
  if declaration.package = key.package ∧ declaration.name = key.unit then
    declaration.entry.workers[key.worker]?.map WorkerEntry.instructions
  else none

/-- Of the bodies that several declarations have for one worker the last one. -/
def lastBody? (declarations : List Declaration) (key : BodyKey) :
    Option (List Script.Instruction) :=
  declarations.reverse.findSome? fun declaration => declaration.body? key

theorem lastBody?_append (earlier later : List Declaration) (key : BodyKey) :
    lastBody? (earlier ++ later) key = (lastBody? later key).or (lastBody? earlier key) := by
  rw [lastBody?, List.reverse_append, List.findSome?_append]
  rfl

theorem lastBody?_cons (first : Declaration) (rest : List Declaration) (key : BodyKey) :
    lastBody? (first :: rest) key = (lastBody? rest key).or (first.body? key) := by
  rw [← List.singleton_append, lastBody?_append]
  simp [lastBody?]

end Declaration

def initDeclaration (package : String) (entry : UnitEntry) : Declaration :=
  ⟨package, initUnitName, .init, entry⟩

def functionDeclaration (package : String) (entry : UnitEntry) : Declaration :=
  ⟨package, entry.name, if entry.isAction then .action else .function, entry⟩

def PackageEntry.declarations (entry : PackageEntry) : List Declaration :=
  (entry.init.map (initDeclaration entry.name)).toList ++
    entry.functions.map (functionDeclaration entry.name)

def declarations (manifest : Manifest) : List Declaration :=
  manifest.packages.flatMap PackageEntry.declarations

/-! ## Bodies of one unit -/

theorem check_of_checkInstructions {footprint : Script.Footprint} {unit worker : String}
    {position : Nat} {instructions : List Script.Instruction}
    (accepted : checkInstructions footprint unit worker position instructions = .ok ()) :
    ∀ instruction ∈ instructions, footprint.check instruction = .ok () := by
  induction instructions generalizing position with
  | nil =>
      intro instruction never
      cases never
  | cons first rest inductionHypothesis =>
      unfold checkInstructions at accepted
      split at accepted
      · cases accepted
      · next firstAccepted =>
        intro instruction member
        rcases List.mem_cons.mp member with rfl | inRest
        · exact firstAccepted
        · exact inductionHypothesis accepted instruction inRest

/-- The bodies that are added have been checked, and a later one replaces an earlier one. -/
theorem of_addBodies {globals : BankSizes} {unit : Callable} {bodies extended : Bodies}
    {pairs : List (Worker × WorkerEntry)}
    (added : addBodies globals unit bodies pairs = .ok extended) :
    (∀ pair ∈ pairs, ∀ instruction ∈ pair.2.instructions,
      (⟨pair.1.locals, unit.returns.sizes, globals⟩ : Script.Footprint).check instruction =
        .ok ()) ∧
    ∀ key, extended.get? key =
      (pairs.reverse.findSome? fun pair =>
        if unit.bodyKey pair.1 = key then some pair.2.instructions else none).or
        (bodies.get? key) := by
  induction pairs generalizing bodies with
  | nil =>
      cases added
      exact ⟨fun pair never => (List.not_mem_nil never).elim, fun key => rfl⟩
  | cons first rest inductionHypothesis =>
      obtain ⟨worker, entry⟩ := first
      unfold addBodies at added
      dsimp only at added
      split at added
      · cases added
      · next accepted =>
        obtain ⟨restChecked, lookups⟩ := inductionHypothesis added
        constructor
        · intro pair member
          rcases List.mem_cons.mp member with rfl | inRest
          · exact check_of_checkInstructions accepted
          · exact restChecked pair inRest
        · intro key
          rw [lookups, List.reverse_cons, List.findSome?_append, Table.get?_insert]
          cases rest.reverse.findSome? fun pair =>
              if unit.bodyKey pair.1 = key then some pair.2.instructions else none with
          | some body =>
              rfl
          | none =>
              by_cases isFirst : unit.bodyKey worker = key <;> simp [isFirst]

theorem findSome?_numberWorkers (params : BankSizes) (start asked : Nat)
    (entries : List WorkerEntry) :
    ((Callable.numberWorkers params start
        (entries.map fun entry => (entry.name, entry.locals))).zip entries).reverse.findSome?
        (fun pair => if pair.1.index = asked then some pair.2.instructions else none) =
      if start ≤ asked then entries[asked - start]?.map WorkerEntry.instructions else none := by
  induction entries generalizing start with
  | nil =>
      simp [Callable.numberWorkers]
  | cons entry rest inductionHypothesis =>
      simp only [List.map_cons, Callable.numberWorkers, List.zip_cons_cons, List.reverse_cons,
        List.findSome?_append, inductionHypothesis, List.findSome?_singleton]
      by_cases isFirst : start = asked
      · subst isFirst
        have notLater : ¬start + 1 ≤ start := by omega
        simp [notLater]
      · by_cases below : start ≤ asked
        · have isLater : start + 1 ≤ asked := by omega
          have shifted : asked - start = asked - (start + 1) + 1 := by omega
          simp [isFirst, below, isLater, shifted]
        · have notLater : ¬start + 1 ≤ asked := by omega
          simp [isFirst, below, notLater]

/-- A loaded unit is built from its declaration, its instructions are checked, and its bodies take
the place of earlier ones. -/
theorem of_loadUnit {globals : BankSizes} {package name : String} {kind : UnitKind}
    {entry : UnitEntry} {bodies extended : Bodies} {unit : Callable}
    (loaded : loadUnit globals package name kind entry bodies = .ok (unit, extended)) :
    (⟨package, name, kind, entry⟩ : Declaration).Builds unit ∧
      (⟨package, name, kind, entry⟩ : Declaration).Checked globals unit ∧
      ∀ key, extended.get? key =
        ((⟨package, name, kind, entry⟩ : Declaration).body? key).or (bodies.get? key) := by
  unfold loadUnit at loaded
  dsimp only at loaded
  split at loaded
  · cases loaded
  · next built =>
    split at loaded
    · cases loaded
    · next added =>
      cases loaded
      have parts := Callable.builtFrom_of_build built
      obtain ⟨checked, lookups⟩ := of_addBodies added
      refine ⟨built, checked, fun key => ?_⟩
      rw [lookups]
      apply congrArg (Option.or · (bodies.get? key))
      obtain ⟨keyPackage, keyUnit, asked⟩ := key
      have sameKey : ∀ worker : Worker, unit.bodyKey worker = ⟨keyPackage, keyUnit, asked⟩ ↔
          (package = keyPackage ∧ name = keyUnit) ∧ worker.index = asked := by
        intro worker
        rw [Callable.bodyKey, parts.package, parts.name, BodyKey.mk.injEq]
        exact and_assoc.symm
      unfold Declaration.body?
      by_cases sameNames : package = keyPackage ∧ name = keyUnit
      · simp only [sameKey, sameNames, true_and, and_self, if_true]
        have found := findSome?_numberWorkers unit.params.sizes 0 asked entry.workers
        rw [if_pos (Nat.zero_le _), Nat.sub_zero] at found
        cases workers : entry.workers with
        | nil =>
            simp
        | cons first rest =>
            have numbered : unit.workers = Callable.numberWorkers unit.params.sizes 0
                ((first :: rest).map fun entry => (entry.name, entry.locals)) := by
              rw [parts.workers, workers]
              rfl
            rw [workers] at found
            rw [numbered]
            exact found
      · simp [sameKey, sameNames]

/-! ## Units of a package -/

/-- A unit comes from a declaration: it is built from it, and its instructions are checked. -/
def Declaration.Yields (declaration : Declaration) (globals : BankSizes) (unit : Callable) : Prop :=
  declaration.Builds unit ∧ declaration.Checked globals unit

/-- The entry of a function.  Of several with one name the last one counts. -/
def declaredFunction? (entries : List UnitEntry) (name : String) : Option UnitEntry :=
  entries.reverse.find? fun entry => entry.name = name

theorem declaredFunction?_cons (first : UnitEntry) (rest : List UnitEntry) (name : String) :
    declaredFunction? (first :: rest) name =
      (declaredFunction? rest name).or (if first.name = name then some first else none) := by
  rw [declaredFunction?, List.reverse_cons, List.find?_append]
  by_cases isFirst : first.name = name <;> simp [declaredFunction?, isFirst]

theorem of_addGlobals {globals : BankSizes} {package extended : Package}
    {entries : List GlobalEntry} (added : addGlobals globals package entries = .ok extended) :
    extended.name = package.name ∧ extended.init = package.init ∧
      extended.functions = package.functions := by
  induction entries generalizing package with
  | nil =>
      cases added
      exact ⟨rfl, rfl, rfl⟩
  | cons entry rest inductionHypothesis =>
      unfold addGlobals at added
      split at added
      · cases added
      · split at added
        · have kept := inductionHypothesis added
          exact kept
        · cases added

/-- Loaded functions come from the last declarations of their names. -/
theorem of_loadFunctions {globals : BankSizes} {package extendedPackage : Package}
    {bodies extended : Bodies} {entries : List UnitEntry}
    (loaded : loadFunctions globals package bodies entries = .ok (extendedPackage, extended)) :
    extendedPackage.name = package.name ∧ extendedPackage.init = package.init ∧
      (∀ name unit, extendedPackage.functions.get? name = some unit →
        match declaredFunction? entries name with
        | some entry => (functionDeclaration package.name entry).Yields globals unit
        | none => package.functions.get? name = some unit) ∧
      ∀ key, extended.get? key =
        (Declaration.lastBody? (entries.map (functionDeclaration package.name)) key).or
          (bodies.get? key) := by
  induction entries generalizing package bodies with
  | nil =>
      cases loaded
      exact ⟨rfl, rfl, fun name unit found => found, fun key => rfl⟩
  | cons entry rest inductionHypothesis =>
      unfold loadFunctions at loaded
      split at loaded
      · cases loaded
      · dsimp only at loaded
        split at loaded
        · cases loaded
        · next first firstBodies firstLoaded =>
          obtain ⟨built, checked, firstLookups⟩ := of_loadUnit firstLoaded
          obtain ⟨sameName, sameInit, functions, lookups⟩ := inductionHypothesis loaded
          have yields : (functionDeclaration package.name entry).Yields globals first :=
            ⟨built, checked⟩
          have named : first.name = entry.name := (Callable.builtFrom_of_build built).name
          refine ⟨sameName, sameInit, fun name unit found => ?_, fun key => ?_⟩
          · have inRest := functions name unit found
            rw [declaredFunction?_cons]
            cases later : declaredFunction? rest name with
            | some last =>
                rw [later] at inRest
                exact inRest
            | none =>
                rw [later] at inRest
                change (package.functions.insert first.name first).get? name = some unit at inRest
                rw [Table.get?_insert, named] at inRest
                by_cases isFirst : entry.name = name
                · rw [if_pos isFirst] at inRest
                  cases inRest
                  simpa [isFirst] using yields
                · rw [if_neg isFirst] at inRest
                  simpa [isFirst] using inRest
          · have firstBody : (functionDeclaration package.name entry).body? key =
                (⟨package.name, entry.name, if entry.isAction then .action else .function, entry⟩ :
                  Declaration).body? key := rfl
            rw [lookups, firstLookups, List.map_cons, Declaration.lastBody?_cons, firstBody,
              Option.or_assoc]
            rfl

theorem of_loadInit {globals : BankSizes} {package extendedPackage : Package}
    {bodies extended : Bodies} {declared : Option UnitEntry}
    (loaded : loadInit globals package bodies declared = .ok (extendedPackage, extended))
    (noInit : package.init = none) :
    extendedPackage.name = package.name ∧ extendedPackage.functions = package.functions ∧
      (∀ unit, extendedPackage.init = some unit → ∃ entry, declared = some entry ∧
        (initDeclaration package.name entry).Yields globals unit) ∧
      ∀ key, extended.get? key =
        (Declaration.lastBody? (declared.map (initDeclaration package.name)).toList key).or
          (bodies.get? key) := by
  cases declared with
  | none =>
      cases loaded
      refine ⟨rfl, rfl, fun unit found => ?_, fun key => rfl⟩
      rw [noInit] at found
      cases found
  | some entry =>
      unfold loadInit at loaded
      dsimp only at loaded
      split at loaded
      · cases loaded
      · next unit unitBodies unitLoaded =>
        cases loaded
        obtain ⟨built, checked, lookups⟩ := of_loadUnit unitLoaded
        refine ⟨rfl, rfl, fun found isFound => ?_, fun key => ?_⟩
        · cases isFound
          exact ⟨entry, rfl, built, checked⟩
        · rw [lookups]
          simp [Declaration.lastBody?, initDeclaration]

structure PackageEntry.Loads (entry : PackageEntry) (globals : BankSizes) (package : Package) : Prop
    where
  name : package.name = entry.name
  init : ∀ unit, package.init = some unit → ∃ declared, entry.init = some declared ∧
    (initDeclaration entry.name declared).Yields globals unit
  functions : ∀ name unit, package.functions.get? name = some unit →
    ∃ declared, declaredFunction? entry.functions name = some declared ∧
      (functionDeclaration entry.name declared).Yields globals unit

theorem of_loadPackage {globals : BankSizes} {entry : PackageEntry} {bodies extended : Bodies}
    {package : Package} (loaded : loadPackage globals entry bodies = .ok (package, extended)) :
    entry.Loads globals package ∧ ∀ key, extended.get? key =
      (Declaration.lastBody? entry.declarations key).or (bodies.get? key) := by
  unfold loadPackage at loaded
  split at loaded
  · cases loaded
  · next withGlobals added =>
    split at loaded
    · cases loaded
    · next withInit initBodies initLoaded =>
      obtain ⟨globalsName, globalsInit, globalsFunctions⟩ := of_addGlobals added
      obtain ⟨initName, initFunctions, init, initLookups⟩ := of_loadInit initLoaded globalsInit
      obtain ⟨name, sameInit, functions, lookups⟩ := of_loadFunctions loaded
      have isNamed : withGlobals.name = entry.name := globalsName
      rw [isNamed] at initName init initLookups
      rw [initName] at name functions lookups
      refine ⟨⟨name, ?_, ?_⟩, fun key => ?_⟩
      · rw [sameInit]
        exact init
      · intro name unit found
        have comesFrom := functions name unit found
        cases isLast : declaredFunction? entry.functions name with
        | some declared =>
            rw [isLast] at comesFrom
            exact ⟨declared, rfl, comesFrom⟩
        | none =>
            rw [isLast, initFunctions, globalsFunctions] at comesFrom
            cases comesFrom
      · rw [lookups, initLookups, PackageEntry.declarations, Declaration.lastBody?_append,
          Option.or_assoc]

/-! ## All packages -/

theorem of_loadPackages {globals : BankSizes} {bodies extended : Bodies}
    {entries : List PackageEntry} {packages : List Package}
    (loaded : loadPackages globals bodies entries = .ok (packages, extended)) :
    List.Forall₂ (fun entry package => entry.Loads globals package) entries packages ∧
      ∀ key, extended.get? key =
        (Declaration.lastBody? (entries.flatMap PackageEntry.declarations) key).or
          (bodies.get? key) := by
  induction entries generalizing bodies packages with
  | nil =>
      cases loaded
      exact ⟨.nil, fun key => rfl⟩
  | cons entry rest inductionHypothesis =>
      unfold loadPackages at loaded
      split at loaded
      · cases loaded
      · next first firstBodies firstLoaded =>
        split at loaded
        · cases loaded
        · next others finalBodies restLoaded =>
          cases loaded
          obtain ⟨firstLoads, firstLookups⟩ := of_loadPackage firstLoaded
          obtain ⟨restLoad, lookups⟩ := inductionHypothesis restLoaded
          refine ⟨.cons firstLoads restLoad, fun key => ?_⟩
          rw [lookups, firstLookups, List.flatMap_cons, Declaration.lastBody?_append,
            Option.or_assoc]

/-- The entry of a package.  Of several with one name the last one counts. -/
def declaredPackage? (entries : List PackageEntry) (name : String) : Option PackageEntry :=
  entries.reverse.find? fun entry => entry.name = name

/-- A package that is found has come from the last entry of its name. -/
theorem exists_declaredPackage? {globals : BankSizes} {entries : List PackageEntry}
    {packages : List Package}
    (load : List.Forall₂ (fun entry package => entry.Loads globals package) entries packages)
    {name : String} {package : Package} (sizes : BankSizes)
    (found : (Program.ofPackages packages sizes).package name = .ok package) :
    ∃ entry, declaredPackage? entries name = some entry ∧ entry.Loads globals package := by
  have isLast : (packages.reverse.find? fun package => package.name = name) = some package := by
    unfold Program.package Program.ofPackages at found
    rw [Table.get?_ofList, ← List.map_reverse, List.find?_map] at found
    split at found
    · next isFound =>
      cases found
      have paired : (Prod.snd ∘ fun package : Package => (package.name, package)) = id := rfl
      rw [Option.map_map, paired, Option.map_id] at isFound
      exact isFound
    · cases found
  have reversed := List.rel_reverse load
  unfold declaredPackage?
  generalize entries.reverse = lastFirst at reversed ⊢
  generalize packages.reverse = lastPackages at reversed isLast
  induction reversed with
  | nil =>
      cases isLast
  | @cons entry other _ _ loads _ inductionHypothesis =>
      rw [List.find?_cons] at isLast ⊢
      rw [loads.name] at isLast
      by_cases isNamed : entry.name = name
      · simp only [isNamed, decide_true] at isLast ⊢
        cases isLast
        exact ⟨entry, rfl, loads⟩
      · simp only [isNamed, decide_false] at isLast ⊢
        exact inductionHypothesis isLast

end Manifest

end WorkerMachine
