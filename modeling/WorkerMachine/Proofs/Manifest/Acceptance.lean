import WorkerMachine.Proofs.Manifest.Bodies
/-!
# Which manifests are accepted, and what is made of them

Whether a manifest is accepted is told by its declarations one by one: each global has its place, each
unit can be built and checked, and each constant has its package.  What is found afterwards under a name
comes from the last declaration of the name.  Neither speaks of what has been loaded before.
-/

namespace WorkerMachine

/-- Keys are held once, also after a write. -/
theorem Table.nodup_keys_insert {Key Entry : Type} [DecidableEq Key] {table : Table Key Entry}
    (nodup : table.keys.Nodup) (key : Key) (entry : Entry) : (table.insert key entry).keys.Nodup := by
  rw [keys_insert]
  split
  · exact nodup
  · next fresh =>
    refine List.nodup_append.mpr ⟨nodup, List.pairwise_singleton _ key, ?_⟩
    rintro held isHeld other isKey rfl
    obtain rfl := List.mem_singleton.mp isKey
    exact fresh isHeld

theorem Table.nodup_keys_ofList {Key Entry : Type} [DecidableEq Key] (pairs : List (Key × Entry)) :
    (ofList pairs).keys.Nodup := by
  have whatever : ∀ table : Table Key Entry, table.keys.Nodup →
      (pairs.foldl (fun table pair => table.insert pair.1 pair.2) table).keys.Nodup := by
    induction pairs with
    | nil => exact fun table nodup => nodup
    | cons first rest inductionHypothesis =>
        exact fun table nodup => inductionHypothesis _ (nodup_keys_insert nodup first.1 first.2)
  exact whatever empty List.nodup_nil

namespace Manifest

/-! ## Globals -/

def GlobalEntry.variable (entry : GlobalEntry) : GlobalVariable :=
  ⟨entry.index, entry.type⟩

/-- A global has a bank, and its place is inside that bank. -/
def GlobalEntry.Fits (entry : GlobalEntry) (globals : BankSizes) : Prop :=
  ∃ bank, entry.type.bank? = some bank ∧ entry.index < globals.get bank

/-- The entry of a global variable.  Of several with one name the last one counts. -/
def declaredGlobal? (entries : List GlobalEntry) (name : String) : Option GlobalEntry :=
  entries.reverse.find? fun entry => entry.name = name

theorem declaredGlobal?_cons (first : GlobalEntry) (rest : List GlobalEntry) (name : String) :
    declaredGlobal? (first :: rest) name =
      (declaredGlobal? rest name).or (if first.name = name then some first else none) := by
  rw [declaredGlobal?, List.reverse_cons, List.find?_append]
  by_cases isFirst : first.name = name <;> simp [declaredGlobal?, isFirst]

theorem exists_addGlobals {globals : BankSizes} {entries : List GlobalEntry}
    (fit : ∀ entry ∈ entries, entry.Fits globals) (package : Package) :
    ∃ extended, addGlobals globals package entries = .ok extended := by
  induction entries generalizing package with
  | nil => exact ⟨package, rfl⟩
  | cons entry rest inductionHypothesis =>
      obtain ⟨bank, isBank, inside⟩ := fit entry List.mem_cons_self
      obtain ⟨extended, added⟩ := inductionHypothesis
        (fun other member => fit other (List.mem_cons_of_mem _ member))
        (package.addGlobal entry.name entry.variable)
      refine ⟨extended, ?_⟩
      rw [addGlobals, isBank]
      dsimp only
      rw [if_pos inside]
      exact added

/-- Globals that have been added fit, and a look-up finds the last one of its name. -/
theorem globals_of_addGlobals {globals : BankSizes} {package extended : Package}
    {entries : List GlobalEntry} (added : addGlobals globals package entries = .ok extended) :
    (∀ entry ∈ entries, entry.Fits globals) ∧
      (∀ name, extended.globals.get? name =
        ((declaredGlobal? entries name).map GlobalEntry.variable).or (package.globals.get? name)) ∧
      (package.globals.keys.Nodup → extended.globals.keys.Nodup) := by
  induction entries generalizing package with
  | nil =>
      cases added
      exact ⟨fun entry never => (List.not_mem_nil never).elim, fun name => rfl, id⟩
  | cons entry rest inductionHypothesis =>
      unfold addGlobals at added
      split at added
      · cases added
      · next bank isBank =>
        split at added
        · next inside =>
          obtain ⟨restFit, lookups, nodup⟩ := inductionHypothesis added
          refine ⟨fun other member => ?_, fun name => ?_,
            fun before => nodup (Table.nodup_keys_insert before _ _)⟩
          · rcases List.mem_cons.mp member with rfl | inRest
            · exact ⟨bank, isBank, inside⟩
            · exact restFit other inRest
          · rw [lookups, declaredGlobal?_cons]
            cases declaredGlobal? rest name with
            | some last => rfl
            | none =>
                dsimp only [Package.addGlobal]
                rw [Table.get?_insert]
                by_cases isFirst : entry.name = name <;> simp [isFirst, GlobalEntry.variable]
        · cases added

/-! ## Units -/

def Declaration.unit? (declaration : Declaration) : Option Callable :=
  (Callable.build declaration.package declaration.name declaration.kind declaration.entry.params
    declaration.entry.returns
    (declaration.entry.workers.map fun worker => (worker.name, worker.locals))).toOption

theorem Declaration.Builds.unit? {declaration : Declaration} {unit : Callable}
    (builds : declaration.Builds unit) : declaration.unit? = some unit := by
  unfold Declaration.unit?
  rw [builds]
  rfl

def Declaration.Accepted (declaration : Declaration) (globals : BankSizes) : Prop :=
  ∃ unit, declaration.Yields globals unit

theorem Declaration.Accepted.isSome_unit? {declaration : Declaration} {globals : BankSizes}
    (accepted : declaration.Accepted globals) : declaration.unit?.isSome := by
  obtain ⟨unit, builds, _⟩ := accepted
  rw [builds.unit?]
  rfl

theorem checkInstructions_of_check {footprint : Script.Footprint} {unit worker : String}
    {instructions : List Script.Instruction}
    (accepted : ∀ instruction ∈ instructions, footprint.check instruction = .ok ())
    (position : Nat) : checkInstructions footprint unit worker position instructions = .ok () := by
  induction instructions generalizing position with
  | nil => rfl
  | cons first rest inductionHypothesis =>
      rw [checkInstructions, accepted first List.mem_cons_self]
      exact inductionHypothesis
        (fun instruction member => accepted instruction (List.mem_cons_of_mem _ member)) _

theorem exists_addBodies {globals : BankSizes} {unit : Callable}
    {pairs : List (Worker × WorkerEntry)}
    (checked : ∀ pair ∈ pairs, ∀ instruction ∈ pair.2.instructions,
      (⟨pair.1.locals, unit.returns.sizes, globals⟩ : Script.Footprint).check instruction = .ok ())
    (bodies : Bodies) : ∃ extended, addBodies globals unit bodies pairs = .ok extended := by
  induction pairs generalizing bodies with
  | nil => exact ⟨bodies, rfl⟩
  | cons first rest inductionHypothesis =>
      obtain ⟨worker, entry⟩ := first
      obtain ⟨extended, added⟩ := inductionHypothesis
        (fun pair member => checked pair (List.mem_cons_of_mem _ member))
        (bodies.insert (unit.bodyKey worker) entry.instructions)
      refine ⟨extended, ?_⟩
      unfold addBodies
      dsimp only
      rw [checkInstructions_of_check (checked _ List.mem_cons_self)]
      exact added

theorem exists_loadUnit {globals : BankSizes} {package name : String} {kind : UnitKind}
    {entry : UnitEntry}
    (accepted : (⟨package, name, kind, entry⟩ : Declaration).Accepted globals) (bodies : Bodies) :
    ∃ unit extended, loadUnit globals package name kind entry bodies = .ok (unit, extended) := by
  obtain ⟨unit, builds, checked⟩ := accepted
  obtain ⟨extended, added⟩ := exists_addBodies checked bodies
  refine ⟨unit, extended, ?_⟩
  have built : Callable.build package name kind entry.params entry.returns
      (entry.workers.map fun worker => (worker.name, worker.locals)) = .ok unit := builds
  unfold loadUnit
  dsimp only
  rw [built]
  dsimp only
  rw [added]

theorem accepted_of_loadUnit {globals : BankSizes} {package name : String} {kind : UnitKind}
    {entry : UnitEntry} {bodies extended : Bodies} {unit : Callable}
    (loaded : loadUnit globals package name kind entry bodies = .ok (unit, extended)) :
    (⟨package, name, kind, entry⟩ : Declaration).Accepted globals ∧
      (⟨package, name, kind, entry⟩ : Declaration).unit? = some unit := by
  obtain ⟨builds, checked, _⟩ := of_loadUnit loaded
  exact ⟨⟨unit, builds, checked⟩, builds.unit?⟩

/-! ## Functions -/

def UnitEntry.AcceptedIn (entry : UnitEntry) (package : String) (globals : BankSizes) : Prop :=
  entry.name ≠ "" ∧ (functionDeclaration package entry).Accepted globals

theorem exists_loadFunctions {globals : BankSizes} {entries : List UnitEntry} {package : Package}
    (accepted : ∀ entry ∈ entries, entry.AcceptedIn package.name globals) (bodies : Bodies) :
    ∃ loaded, loadFunctions globals package bodies entries = .ok loaded := by
  induction entries generalizing package bodies with
  | nil => exact ⟨_, rfl⟩
  | cons entry rest inductionHypothesis =>
      obtain ⟨named, unitAccepted⟩ := accepted entry List.mem_cons_self
      obtain ⟨unit, extended, unitLoaded⟩ := exists_loadUnit unitAccepted bodies
      have isNamed : ¬entry.name.isEmpty = true := fun isEmpty => named (String.isEmpty_iff.mp isEmpty)
      rw [loadFunctions, if_neg isNamed]
      dsimp only
      rw [unitLoaded]
      have others : ∀ other ∈ rest, other.AcceptedIn (package.addFunction unit).name globals :=
        fun other member => accepted other (List.mem_cons_of_mem _ member)
      exact inductionHypothesis others extended

/-- Loaded functions have been accepted, and a look-up finds what the last one of its name makes. -/
theorem functions_of_loadFunctions {globals : BankSizes} {package extendedPackage : Package}
    {bodies extended : Bodies} {entries : List UnitEntry}
    (loaded : loadFunctions globals package bodies entries = .ok (extendedPackage, extended)) :
    (∀ entry ∈ entries, entry.AcceptedIn package.name globals) ∧
      extendedPackage.globals = package.globals ∧
      (∀ name, extendedPackage.functions.get? name =
        ((declaredFunction? entries name).bind fun entry =>
          (functionDeclaration package.name entry).unit?).or (package.functions.get? name)) ∧
      (package.functions.keys.Nodup → extendedPackage.functions.keys.Nodup) := by
  induction entries generalizing package bodies with
  | nil =>
      cases loaded
      exact ⟨fun entry never => (List.not_mem_nil never).elim, rfl, fun name => rfl, id⟩
  | cons entry rest inductionHypothesis =>
      unfold loadFunctions at loaded
      split at loaded
      · cases loaded
      · next named =>
        dsimp only at loaded
        split at loaded
        · cases loaded
        · next unit unitBodies unitLoaded =>
          obtain ⟨unitAccepted, made⟩ := accepted_of_loadUnit unitLoaded
          obtain ⟨restAccepted, sameGlobals, lookups, nodup⟩ := inductionHypothesis loaded
          have isEntry : entry.AcceptedIn package.name globals :=
            ⟨fun isEmpty => named (String.isEmpty_iff.mpr isEmpty), unitAccepted⟩
          have unitName : unit.name = entry.name :=
            (Callable.builtFrom_of_build (of_loadUnit unitLoaded).1).name
          refine ⟨fun other member => ?_, sameGlobals, fun name => ?_,
            fun before => nodup (Table.nodup_keys_insert before _ _)⟩
          · rcases List.mem_cons.mp member with rfl | inRest
            · exact isEntry
            · exact restAccepted other inRest
          · have later := lookups name
            dsimp only [Package.addFunction] at later
            rw [Table.get?_insert, unitName] at later
            rw [later, declaredFunction?_cons]
            cases isLast : declaredFunction? rest name with
            | some last =>
                have isSome := (restAccepted last (declaredFunction?_mem isLast)).2.isSome_unit?
                obtain ⟨lastUnit, isUnit⟩ := Option.isSome_iff_exists.mp isSome
                have isUnit : (functionDeclaration package.name last).unit? = some lastUnit := isUnit
                simp only [Option.bind_some, Option.some_or, isUnit]
            | none =>
                have made : (functionDeclaration package.name entry).unit? = some unit := made
                by_cases isFirst : entry.name = name <;> simp [isFirst, made]

/-! ## Packages -/

/-- Every global of a package has its place, and every unit is accepted. -/
structure PackageEntry.Accepted (entry : PackageEntry) (sizes : BankSizes) : Prop where
  globals : ∀ global ∈ entry.globals, global.Fits sizes
  init : ∀ declared, entry.init = some declared →
    (initDeclaration entry.name declared).Accepted sizes
  functions : ∀ declared ∈ entry.functions, declared.AcceptedIn entry.name sizes

/-- Every look-up in a package finds what the last declaration of its name makes. -/
structure PackageEntry.Makes (entry : PackageEntry) (package : Package) : Prop where
  name : package.name = entry.name
  init : package.init = entry.init.bind fun declared => (initDeclaration entry.name declared).unit?
  functions : ∀ name, package.functions.get? name =
    (declaredFunction? entry.functions name).bind fun declared =>
      (functionDeclaration entry.name declared).unit?
  globals : ∀ name, package.globals.get? name =
    (declaredGlobal? entry.globals name).map GlobalEntry.variable
  functionNames : package.functions.keys.Nodup
  globalNames : package.globals.keys.Nodup

theorem exists_loadPackage {globals : BankSizes} {entry : PackageEntry}
    (accepted : entry.Accepted globals) (bodies : Bodies) :
    ∃ loaded, loadPackage globals entry bodies = .ok loaded := by
  obtain ⟨withGlobals, added⟩ := exists_addGlobals accepted.globals (.ofName entry.name)
  have named : withGlobals.name = entry.name := (of_addGlobals added).1
  have initLoads : ∃ withInit extended,
      loadInit globals withGlobals bodies entry.init = .ok (withInit, extended) ∧
        withInit.name = entry.name := by
    cases isInit : entry.init with
    | none => exact ⟨_, _, rfl, named⟩
    | some declared =>
        have isAccepted := accepted.init declared isInit
        rw [← named] at isAccepted
        obtain ⟨unit, extended, unitLoaded⟩ := exists_loadUnit isAccepted bodies
        refine ⟨withGlobals.setInit unit, extended, ?_, named⟩
        rw [loadInit, unitLoaded]
  obtain ⟨withInit, extended, initLoaded, initNamed⟩ := initLoads
  have functions := accepted.functions
  rw [← initNamed] at functions
  obtain ⟨loaded, functionsLoaded⟩ := exists_loadFunctions functions extended
  refine ⟨loaded, ?_⟩
  rw [loadPackage, added]
  dsimp only
  rw [initLoaded]
  exact functionsLoaded

theorem makes_of_loadPackage {globals : BankSizes} {entry : PackageEntry} {bodies extended : Bodies}
    {package : Package} (loaded : loadPackage globals entry bodies = .ok (package, extended)) :
    entry.Accepted globals ∧ entry.Makes package := by
  have loads := (of_loadPackage loaded).1
  unfold loadPackage at loaded
  split at loaded
  · cases loaded
  · next withGlobals added =>
    split at loaded
    · cases loaded
    · next withInit initBodies initLoaded =>
      obtain ⟨fit, globalLookups, globalNames⟩ := globals_of_addGlobals added
      obtain ⟨globalsName, globalsInit, globalsFunctions⟩ := of_addGlobals added
      have globalsName : withGlobals.name = entry.name := globalsName
      obtain ⟨initName, initFunctions, _, _⟩ := of_loadInit initLoaded globalsInit
      obtain ⟨accepted, sameGlobals, lookups, functionNames⟩ := functions_of_loadFunctions loaded
      obtain ⟨_, sameInit, _, _⟩ := of_loadFunctions loaded
      have initGlobals : withInit.globals = withGlobals.globals ∧
          withInit.init = (entry.init.bind fun declared =>
            (initDeclaration entry.name declared).unit?) ∧
          ∀ declared, entry.init = some declared →
            (initDeclaration entry.name declared).Accepted globals := by
        cases isInit : entry.init with
        | none =>
            rw [isInit] at initLoaded
            cases initLoaded
            exact ⟨rfl, globalsInit, fun declared never => nomatch never⟩
        | some declared =>
            rw [isInit, loadInit] at initLoaded
            split at initLoaded
            · cases initLoaded
            · next unit unitBodies unitLoaded =>
              cases initLoaded
              obtain ⟨unitAccepted, made⟩ := accepted_of_loadUnit unitLoaded
              rw [globalsName] at unitAccepted made
              refine ⟨rfl, made.symm, fun other isOther => ?_⟩
              cases isOther
              exact unitAccepted
      obtain ⟨initGlobals, isInit, initAccepted⟩ := initGlobals
      rw [initName, globalsName] at accepted lookups
      have noFunctions : withInit.functions = .empty := initFunctions.trans globalsFunctions
      refine ⟨⟨fit, initAccepted, accepted⟩, ⟨loads.name, sameInit.trans isInit, fun name => ?_,
        fun name => ?_, functionNames ?_, ?_⟩⟩
      · rw [lookups, noFunctions, Table.get?_empty, Option.or_none]
      · have noGlobals : (Package.ofName entry.name).globals.get? name = none := rfl
        rw [sameGlobals, initGlobals, globalLookups, noGlobals, Option.or_none]
      · rw [noFunctions]
        exact List.nodup_nil
      · rw [sameGlobals, initGlobals]
        exact globalNames List.nodup_nil

/-! ## Manifests -/

theorem exists_loadPackages {globals : BankSizes} {entries : List PackageEntry}
    (accepted : ∀ entry ∈ entries, entry.Accepted globals) (bodies : Bodies) :
    ∃ loaded, loadPackages globals bodies entries = .ok loaded := by
  induction entries generalizing bodies with
  | nil => exact ⟨_, rfl⟩
  | cons entry rest inductionHypothesis =>
      obtain ⟨⟨package, extended⟩, packageLoaded⟩ :=
        exists_loadPackage (accepted entry List.mem_cons_self) bodies
      obtain ⟨⟨packages, final⟩, restLoaded⟩ := inductionHypothesis
        (fun other member => accepted other (List.mem_cons_of_mem _ member)) extended
      refine ⟨(package :: packages, final), ?_⟩
      rw [loadPackages, packageLoaded]
      dsimp only
      rw [restLoaded]

theorem makes_of_loadPackages {globals : BankSizes} {bodies extended : Bodies}
    {entries : List PackageEntry} {packages : List Package}
    (loaded : loadPackages globals bodies entries = .ok (packages, extended)) :
    (∀ entry ∈ entries, entry.Accepted globals) ∧
      List.Forall₂ PackageEntry.Makes entries packages := by
  induction entries generalizing bodies packages with
  | nil =>
      cases loaded
      exact ⟨fun entry never => (List.not_mem_nil never).elim, .nil⟩
  | cons entry rest inductionHypothesis =>
      unfold loadPackages at loaded
      split at loaded
      · cases loaded
      · next firstLoaded =>
        split at loaded
        · cases loaded
        · next restLoaded =>
          cases loaded
          obtain ⟨firstAccepted, firstMakes⟩ := makes_of_loadPackage firstLoaded
          obtain ⟨restAccepted, restMake⟩ := inductionHypothesis restLoaded
          refine ⟨fun other member => ?_, .cons firstMakes restMake⟩
          rcases List.mem_cons.mp member with rfl | inRest
          · exact firstAccepted
          · exact restAccepted other inRest

/-- A package is found exactly if it is declared, and what is found is what its last declaration
makes. -/
theorem rel_packages {entries : List PackageEntry} {packages : List Package}
    (make : List.Forall₂ PackageEntry.Makes entries packages) (sizes : BankSizes) (name : String) :
    Option.Rel PackageEntry.Makes (declaredPackage? entries name)
      ((Program.ofPackages packages sizes).packages.get? name) := by
  have isLast : (Program.ofPackages packages sizes).packages.get? name =
      packages.reverse.find? fun package => package.name = name := by
    have paired : (Prod.snd ∘ fun package : Package => (package.name, package)) = id := rfl
    unfold Program.ofPackages
    rw [Table.get?_ofList, ← List.map_reverse, List.find?_map, Option.map_map, paired, Option.map_id]
    rfl
  rw [isLast, declaredPackage?]
  have reversed := List.rel_reverse make
  generalize entries.reverse = lastFirst at reversed ⊢
  generalize packages.reverse = lastPackages at reversed ⊢
  induction reversed with
  | nil => exact .none
  | @cons entry package _ _ makes _ inductionHypothesis =>
      rw [List.find?_cons, List.find?_cons, makes.name]
      by_cases isNamed : entry.name = name
      · simp only [isNamed, decide_true]
        exact .some makes
      · simp only [isNamed, decide_false]
        exact inductionHypothesis

/-- Every package of a manifest is accepted, and every constant has its package. -/
structure Accepted (manifest : Manifest) : Prop where
  packages : ∀ entry ∈ manifest.packages, entry.Accepted manifest.globals
  constants : ∀ constant ∈ manifest.constants,
    (declaredPackage? manifest.packages constant.package).isSome

theorem checkConstants_eq_ok_iff {program : Program} {constants : List ConstantEntry} :
    checkConstants program constants = .ok () ↔
      ∀ constant ∈ constants, (program.packages.get? constant.package).isSome := by
  induction constants with
  | nil => exact ⟨fun _ constant never => (List.not_mem_nil never).elim, fun _ => rfl⟩
  | cons first rest inductionHypothesis =>
      rw [List.forall_mem_cons, ← inductionHypothesis, checkConstants, Program.package]
      cases program.packages.get? first.package with
      | none => simp
      | some package => simp

theorem isSome_eq_of_rel {First Second : Type} {related : First → Second → Prop}
    {first : Option First} {second : Option Second} (rel : Option.Rel related first second) :
    first.isSome = second.isSome := by
  cases rel <;> rfl

/-- A manifest is loaded exactly if it is accepted. -/
theorem exists_load_iff (manifest : Manifest) :
    (∃ loaded, manifest.load = .ok loaded) ↔ manifest.Accepted := by
  constructor
  · rintro ⟨loaded, loads⟩
    unfold load at loads
    split at loads
    · cases loads
    · next packages bodies packagesLoaded =>
      dsimp only at loads
      split at loads
      · cases loads
      · next checked =>
        obtain ⟨accepted, make⟩ := makes_of_loadPackages packagesLoaded
        refine ⟨accepted, fun constant member => ?_⟩
        rw [isSome_eq_of_rel (rel_packages make manifest.globals constant.package)]
        exact checkConstants_eq_ok_iff.mp checked constant member
  · intro accepted
    obtain ⟨⟨packages, bodies⟩, packagesLoaded⟩ := exists_loadPackages accepted.packages .empty
    have make := (makes_of_loadPackages packagesLoaded).2
    have checked : checkConstants (Program.ofPackages packages manifest.globals)
        manifest.constants = .ok () := by
      refine checkConstants_eq_ok_iff.mpr fun constant member => ?_
      rw [← isSome_eq_of_rel (rel_packages make manifest.globals constant.package)]
      exact accepted.constants constant member
    refine ⟨⟨Program.ofPackages packages manifest.globals, bodies, manifest.constants⟩, ?_⟩
    rw [load, packagesLoaded]
    dsimp only
    rw [checked]

/-- What is made of an accepted manifest, as far as look-ups go. -/
structure Makes (manifest : Manifest) (loaded : Loaded) : Prop where
  packages : ∀ name, Option.Rel PackageEntry.Makes (declaredPackage? manifest.packages name)
    (loaded.program.packages.get? name)
  packageNames : loaded.program.packages.keys.Nodup
  sizes : loaded.program.globalSizes = manifest.globals
  constants : loaded.constants = manifest.constants
  bodies : ∀ key, loaded.bodies.get? key = Declaration.lastBody? manifest.declarations key

theorem makes_of_load {manifest : Manifest} {loaded : Loaded}
    (loads : manifest.load = .ok loaded) : manifest.Makes loaded := by
  have bodies := (of_load loads).2
  unfold load at loads
  split at loads
  · cases loads
  · next packages packageBodies packagesLoaded =>
    dsimp only at loads
    split at loads
    · cases loads
    · cases loads
      have make := (makes_of_loadPackages packagesLoaded).2
      exact ⟨rel_packages make manifest.globals, Table.nodup_keys_ofList _, rfl, rfl, bodies⟩

end Manifest

end WorkerMachine
