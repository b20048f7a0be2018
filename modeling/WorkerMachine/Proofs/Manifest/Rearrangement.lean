import Mathlib.Data.List.Nodup
import WorkerMachine.Manifest.Listing
import WorkerMachine.Proofs.Manifest.Acceptance
/-!
# The order of declarations

Packages, and the functions and the globals of a package, are declared in some order, which counts only
among declarations of one name.  A manifest in which differently named declarations change places is
accepted as well, and what is loaded from it is the same under every name.  A listing sorts by names,
so it is the same text.
-/

namespace WorkerMachine

/-! ## Tables with the same look-ups -/

/-- In a table whose keys differ, the entries are what look-ups find. -/
theorem Table.get?_eq_some_iff {Key Entry : Type} [DecidableEq Key] {table : Table Key Entry}
    (nodup : table.keys.Nodup) (key : Key) (entry : Entry) :
    table.get? key = some entry ↔ (key, entry) ∈ table.entries := by
  obtain ⟨entries⟩ := table
  change (entries.map Prod.fst).Nodup at nodup
  change seek? entries key = some entry ↔ (key, entry) ∈ entries
  induction entries with
  | nil => simp [seek?]
  | cons held rest inductionHypothesis =>
      obtain ⟨heldKey, heldEntry⟩ := held
      rw [List.map_cons, List.nodup_cons] at nodup
      rw [seek?, List.mem_cons, Prod.mk.injEq]
      by_cases isHeld : heldKey = key
      · subst isHeld
        have notLater : (heldKey, entry) ∉ rest := fun later =>
          nodup.1 (List.mem_map.mpr ⟨_, later, rfl⟩)
        simp [notLater, eq_comm]
      · have keyDiffers : ¬key = heldKey := fun equality => isHeld equality.symm
        simp only [isHeld, keyDiffers, if_false, false_and, false_or]
        exact inductionHypothesis nodup.2

namespace Manifest

/-- Entries with different keys have one sorted order. -/
theorem mergeSort_eq_of_perm {Entry : Type} {first second : List (String × Entry)}
    (nodup : (first.map Prod.fst).Nodup) (permuted : first.Perm second) :
    first.mergeSort (fun left right => left.1 ≤ right.1) =
      second.mergeSort fun left right => left.1 ≤ right.1 := by
  have sorted : ∀ entries : List (String × Entry),
      (entries.mergeSort fun left right => left.1 ≤ right.1).Pairwise
        fun left right => left.1 ≤ right.1 := by
    intro entries
    have transitive : ∀ left middle right : String × Entry, decide (left.1 ≤ middle.1) = true →
        decide (middle.1 ≤ right.1) = true → decide (left.1 ≤ right.1) = true := by
      intro left middle right leftMiddle middleRight
      exact decide_eq_true
        (String.le_trans (of_decide_eq_true leftMiddle) (of_decide_eq_true middleRight))
    have total : ∀ left right : String × Entry,
        (decide (left.1 ≤ right.1) || decide (right.1 ≤ left.1)) = true := by
      intro left right
      simpa using String.le_total left.1 right.1
    exact (List.pairwise_mergeSort transitive total entries).imp of_decide_eq_true
  have same : ((first.mergeSort fun left right => left.1 ≤ right.1).Perm
      (second.mergeSort fun left right => left.1 ≤ right.1)) :=
    (List.mergeSort_perm first _).trans (permuted.trans (List.mergeSort_perm second _).symm)
  refine same.eq_of_pairwise ?_ (sorted first) (sorted second)
  intro left right isLeft isRight leftFirst rightFirst
  have isLeft := (List.mergeSort_perm first _).mem_iff.mp isLeft
  have isRight := permuted.mem_iff.mpr ((List.mergeSort_perm second _).mem_iff.mp isRight)
  exact List.inj_on_of_nodup_map nodup isLeft isRight (String.le_antisymm leftFirst rightFirst)

/-- Tables with the same look-ups are listed alike, as far as what is listed depends on what is found. -/
theorem map_sortedEntries {First Second Shown : Type} {first : Table String First}
    {second : Table String Second} (ofFirst : First → Shown) (ofSecond : Second → Shown)
    (firstNodup : first.keys.Nodup) (secondNodup : second.keys.Nodup)
    (same : ∀ key, (first.get? key).map ofFirst = (second.get? key).map ofSecond) :
    (sortedEntries first).map (fun entry => (entry.1, ofFirst entry.2)) =
      (sortedEntries second).map fun entry => (entry.1, ofSecond entry.2) := by
  have shown : ∀ {Entry : Type} {table : Table String Entry} {ofEntry : Entry → Shown},
      table.keys.Nodup → ∀ key content,
        (key, content) ∈ table.entries.map (fun entry => (entry.1, ofEntry entry.2)) ↔
          (table.get? key).map ofEntry = some content := by
    intro Entry table ofEntry nodup key content
    rw [List.mem_map, Option.map_eq_some_iff]
    constructor
    · rintro ⟨⟨entryKey, entry⟩, member, isShown⟩
      obtain ⟨rfl, rfl⟩ := Prod.mk.inj isShown
      exact ⟨entry, (Table.get?_eq_some_iff nodup _ _).mpr member, rfl⟩
    · rintro ⟨entry, found, rfl⟩
      exact ⟨(key, entry), (Table.get?_eq_some_iff nodup _ _).mp found, rfl⟩
  have keys : ∀ {Entry : Type} {table : Table String Entry} {ofEntry : Entry → Shown},
      (table.entries.map fun entry => (entry.1, ofEntry entry.2)).map Prod.fst = table.keys := by
    intro Entry table ofEntry
    rw [List.map_map]
    rfl
  have firstKeys : ((first.entries.map fun entry => (entry.1, ofFirst entry.2)).map
      Prod.fst).Nodup := by
    rw [keys]
    exact firstNodup
  have secondKeys : ((second.entries.map fun entry => (entry.1, ofSecond entry.2)).map
      Prod.fst).Nodup := by
    rw [keys]
    exact secondNodup
  have permuted : (first.entries.map fun entry => (entry.1, ofFirst entry.2)).Perm
      (second.entries.map fun entry => (entry.1, ofSecond entry.2)) := by
    refine (List.perm_ext_iff_of_nodup (List.Nodup.of_map _ firstKeys)
      (List.Nodup.of_map _ secondKeys)).mpr ?_
    rintro ⟨key, content⟩
    rw [shown firstNodup, shown secondNodup, same]
  have sorted : ∀ {Entry : Type} (table : Table String Entry) (ofEntry : Entry → Shown),
      (sortedEntries table).map (fun entry => (entry.1, ofEntry entry.2)) =
        (table.entries.map fun entry => (entry.1, ofEntry entry.2)).mergeSort
          fun left right => left.1 ≤ right.1 :=
    fun table ofEntry => List.map_mergeSort fun _ _ _ _ => rfl
  rw [sorted, sorted]
  exact mergeSort_eq_of_perm firstKeys permuted

/-! ## Rearranged lists of declarations -/

/-- Two lists of declarations differ in the order of differently named ones only: under every name
they have declarations that correspond, in the same order. -/
def Rearranged {Entry : Type} (name : Entry → String) (corresponds : Entry → Entry → Prop)
    (first second : List Entry) : Prop :=
  ∀ asked, List.Forall₂ corresponds (first.filter fun entry => name entry = asked)
    (second.filter fun entry => name entry = asked)

section Rearranged

variable {Entry : Type} {name : Entry → String} {corresponds : Entry → Entry → Prop}
  {first second : List Entry}

/-- Declarations that all have different names may be permuted. -/
theorem rearranged_of_perm {middle : List Entry}
    (sameName : ∀ left right, corresponds left right → name left = name right)
    (correspond : List.Forall₂ corresponds first middle) (permuted : middle.Perm second)
    (distinct : (second.map name).Nodup) : Rearranged name corresponds first second := by
  intro asked
  have filtered : (middle.filter fun entry => name entry = asked) =
      second.filter fun entry => name entry = asked := by
    have same := permuted.filter fun entry => decide (name entry = asked)
    have namesDiffer : ((second.filter fun entry => name entry = asked).map name).Nodup :=
      distinct.sublist (List.filter_sublist.map name)
    have allAsked : ∀ entry ∈ second.filter (fun entry => decide (name entry = asked)),
        name entry = asked := fun entry member => of_decide_eq_true (List.mem_filter.mp member).2
    generalize (second.filter fun entry => decide (name entry = asked)) = found at *
    cases found with
    | nil => exact same.eq_nil
    | cons entry rest =>
        cases rest with
        | nil => exact List.perm_singleton.mp same
        | cons other others =>
            have sameNames : name entry = name other :=
              (allAsked entry List.mem_cons_self).trans
                (allAsked other (List.mem_cons_of_mem _ List.mem_cons_self)).symm
            rw [List.map_cons, List.map_cons, sameNames] at namesDiffer
            exact absurd List.mem_cons_self (List.nodup_cons.mp namesDiffer).1
  rw [← filtered]
  refine List.rel_filter (fun left right isPair => ?_) correspond
  change decide (name left = asked) = true ↔ decide (name right = asked) = true
  rw [sameName left right isPair]

theorem Rearranged.flip (rearranged : Rearranged name corresponds first second) :
    Rearranged name (fun left right => corresponds right left) second first :=
  fun asked => (rearranged asked).flip

/-- Every declaration has one that corresponds to it. -/
theorem Rearranged.exists_of_mem (rearranged : Rearranged name corresponds first second)
    {entry : Entry} (member : entry ∈ second) : ∃ other ∈ first, corresponds other entry := by
  have among : entry ∈ second.filter fun other => name other = name entry :=
    List.mem_filter.mpr ⟨member, decide_eq_true rfl⟩
  have pairs := rearranged (name entry)
  generalize (second.filter fun other => decide (name other = name entry)) = found at pairs among
  have source : ∀ other ∈ first.filter (fun other => decide (name other = name entry)),
      other ∈ first := fun other isOther => (List.mem_filter.mp isOther).1
  generalize (first.filter fun other => decide (name other = name entry)) = sources at pairs source
  induction pairs with
  | nil => cases among
  | @cons other found _ _ isPair _ inductionHypothesis =>
      rcases List.mem_cons.mp among with rfl | inRest
      · exact ⟨other, source other List.mem_cons_self, isPair⟩
      · exact inductionHypothesis inRest
          fun later isLater => source later (List.mem_cons_of_mem _ isLater)

theorem Rearranged.rel_last (rearranged : Rearranged name corresponds first second)
    (asked : String) :
    Option.Rel corresponds (first.reverse.find? fun entry => name entry = asked)
      (second.reverse.find? fun entry => name entry = asked) := by
  have reversed := List.rel_reverse (rearranged asked)
  rw [← List.head?_filter, ← List.head?_filter, List.filter_reverse, List.filter_reverse]
  generalize (first.filter fun entry => decide (name entry = asked)).reverse = firstLast at *
  generalize (second.filter fun entry => decide (name entry = asked)).reverse = secondLast at *
  cases reversed with
  | nil => exact .none
  | cons isPair _ => exact .some isPair

theorem Rearranged.filter_eq (rearranged : Rearranged name Eq first second) (asked : String) :
    (first.filter fun entry => name entry = asked) =
      second.filter fun entry => name entry = asked := by
  have pairs := rearranged asked
  rw [List.forall₂_eq_eq_eq] at pairs
  exact pairs

theorem Rearranged.last_eq (rearranged : Rearranged name Eq first second) (asked : String) :
    (first.reverse.find? fun entry => name entry = asked) =
      second.reverse.find? fun entry => name entry = asked := by
  rw [← List.head?_filter, ← List.head?_filter, List.filter_reverse, List.filter_reverse,
    rearranged.filter_eq]

end Rearranged

/-- Two declarations of one package: functions and globals of different names may have changed places. -/
structure PackageEntry.Rearranges (first second : PackageEntry) : Prop where
  name : first.name = second.name
  init : first.init = second.init
  functions : Rearranged UnitEntry.name Eq first.functions second.functions
  globals : Rearranged GlobalEntry.name Eq first.globals second.globals

/-- Two manifests that differ in the order of declarations with different names only. -/
structure Rearranges (first second : Manifest) : Prop where
  globals : first.globals = second.globals
  constants : first.constants = second.constants
  packages : Rearranged PackageEntry.name PackageEntry.Rearranges first.packages second.packages

theorem PackageEntry.Rearranges.symm {first second : PackageEntry}
    (rearranges : first.Rearranges second) : second.Rearranges first := by
  have backward : ∀ {Entry : Type} {name : Entry → String} {left right : List Entry},
      Rearranged name Eq left right → Rearranged name Eq right left := by
    intro Entry name left right rearranged asked
    exact (rearranged.flip asked).imp fun _ _ same => same.symm
  exact ⟨rearranges.name.symm, rearranges.init.symm, backward rearranges.functions,
    backward rearranges.globals⟩

theorem Rearranges.symm {first second : Manifest} (rearranges : first.Rearranges second) :
    second.Rearranges first :=
  ⟨rearranges.globals.symm, rearranges.constants.symm,
    fun asked => (rearranges.packages.flip asked).imp fun _ _ isPair => isPair.symm⟩

/-! ## Acceptance -/

theorem PackageEntry.Accepted.rearranged {first second : PackageEntry} {sizes : BankSizes}
    (accepted : first.Accepted sizes) (rearranges : first.Rearranges second) :
    second.Accepted sizes := by
  refine ⟨fun global member => ?_, fun declared isInit => ?_, fun declared member => ?_⟩
  · obtain ⟨_, isGlobal, rfl⟩ := rearranges.globals.exists_of_mem member
    exact accepted.globals _ isGlobal
  · rw [← rearranges.name]
    exact accepted.init declared (rearranges.init.trans isInit)
  · obtain ⟨_, isFunction, rfl⟩ := rearranges.functions.exists_of_mem member
    rw [← rearranges.name]
    exact accepted.functions _ isFunction

theorem Accepted.rearranged {first second : Manifest} (accepted : first.Accepted)
    (rearranges : first.Rearranges second) : second.Accepted := by
  refine ⟨fun entry member => ?_, fun constant member => ?_⟩
  · obtain ⟨other, isEntry, isPair⟩ := rearranges.packages.exists_of_mem member
    rw [← rearranges.globals]
    exact (accepted.packages other isEntry).rearranged isPair
  · rw [← rearranges.constants] at member
    have declared := accepted.constants constant member
    rw [declaredPackage?, isSome_eq_of_rel (rearranges.packages.rel_last constant.package)] at declared
    exact declared

/-! ## Bodies -/

theorem Declaration.lastBody?_functions (package : String) (functions : List UnitEntry)
    (key : BodyKey) :
    lastBody? (functions.map (functionDeclaration package)) key =
      lastBody? ((functions.filter fun entry => entry.name = key.unit).map
        (functionDeclaration package)) key := by
  induction functions with
  | nil => rfl
  | cons first rest inductionHypothesis =>
      rw [List.map_cons, lastBody?_cons, inductionHypothesis, List.filter_cons]
      split
      · rw [List.map_cons, lastBody?_cons]
      · next isOther =>
        have noBody : (functionDeclaration package first).body? key = none :=
          if_neg fun sameNames => isOther (decide_eq_true sameNames.2)
        rw [noBody, Option.or_none]

theorem PackageEntry.Rearranges.lastBody? {first second : PackageEntry}
    (rearranges : first.Rearranges second) (key : BodyKey) :
    Declaration.lastBody? first.declarations key = Declaration.lastBody? second.declarations key := by
  have sameFunctions := rearranges.functions.filter_eq key.unit
  unfold declarations
  rw [Declaration.lastBody?_append, Declaration.lastBody?_append, Declaration.lastBody?_functions,
    Declaration.lastBody?_functions second.name, sameFunctions, rearranges.name, rearranges.init]

theorem PackageEntry.lastBody?_of_ne {entry : PackageEntry} {key : BodyKey}
    (differs : entry.name ≠ key.package) : Declaration.lastBody? entry.declarations key = none := by
  refine List.findSome?_eq_none_iff.mpr fun declaration member => ?_
  have ofPackage : declaration.package = entry.name := by
    rcases List.mem_append.mp (List.mem_reverse.mp member) with isInit | isFunction
    · obtain ⟨_, _, rfl⟩ := Option.map_eq_some_iff.mp (Option.mem_toList.mp isInit)
      rfl
    · obtain ⟨_, _, rfl⟩ := List.mem_map.mp isFunction
      rfl
  exact if_neg fun sameNames => differs (ofPackage.symm.trans sameNames.1)

theorem lastBody?_packages (packages : List PackageEntry) (key : BodyKey) :
    Declaration.lastBody? (packages.flatMap PackageEntry.declarations) key =
      Declaration.lastBody? ((packages.filter fun entry => entry.name = key.package).flatMap
        PackageEntry.declarations) key := by
  induction packages with
  | nil => rfl
  | cons first rest inductionHypothesis =>
      rw [List.flatMap_cons, Declaration.lastBody?_append, inductionHypothesis, List.filter_cons]
      split
      · rw [List.flatMap_cons, Declaration.lastBody?_append]
      · next isOther =>
        rw [PackageEntry.lastBody?_of_ne fun same => isOther (decide_eq_true same), Option.or_none]

/-- Rearranged manifests declare the same last body for every worker. -/
theorem Rearranges.lastBody? {first second : Manifest} (rearranges : first.Rearranges second)
    (key : BodyKey) :
    Declaration.lastBody? first.declarations key = Declaration.lastBody? second.declarations key := by
  have pairs := rearranges.packages key.package
  unfold declarations
  rw [lastBody?_packages, lastBody?_packages second.packages]
  generalize (first.packages.filter fun entry => decide (entry.name = key.package)) = ofFirst at *
  generalize (second.packages.filter fun entry => decide (entry.name = key.package)) = ofSecond at *
  induction pairs with
  | nil => rfl
  | cons isPair _ inductionHypothesis =>
      rw [List.flatMap_cons, List.flatMap_cons, Declaration.lastBody?_append,
        Declaration.lastBody?_append, inductionHypothesis, isPair.lastBody?]

/-! ## What is loaded -/

/-- Two packages have the same name, the same init unit and the same content under every name. -/
structure PackagesAgree (first second : Package) : Prop where
  name : first.name = second.name
  init : first.init = second.init
  functions : ∀ name, first.functions.get? name = second.functions.get? name
  globals : ∀ name, first.globals.get? name = second.globals.get? name

/-- Two loaded programs are the same under every name, and they are listed as the same text. -/
structure Loaded.Agrees (first second : Loaded) : Prop where
  listing : first.listing = second.listing
  packages : ∀ name, Option.Rel PackagesAgree (first.program.packages.get? name)
    (second.program.packages.get? name)
  bodies : ∀ key, first.bodies.get? key = second.bodies.get? key
  sizes : first.program.globalSizes = second.program.globalSizes
  constants : first.constants = second.constants

/-- What two corresponding declarations make of a package is the same. -/
theorem PackageEntry.Rearranges.agree {first second : PackageEntry} {firstPackage secondPackage :
    Package} (rearranges : first.Rearranges second) (firstMakes : first.Makes firstPackage)
    (secondMakes : second.Makes secondPackage) : PackagesAgree firstPackage secondPackage where
  name := by rw [firstMakes.name, secondMakes.name, rearranges.name]
  init := by rw [firstMakes.init, secondMakes.init, rearranges.init, rearranges.name]
  functions := by
    intro name
    rw [firstMakes.functions, secondMakes.functions, rearranges.name]
    exact congrArg (Option.bind · _) (rearranges.functions.last_eq name)
  globals := by
    intro name
    rw [firstMakes.globals, secondMakes.globals]
    exact congrArg (Option.map _) (rearranges.globals.last_eq name)

theorem PackageEntry.Rearranges.lines {first second : PackageEntry} {firstPackage secondPackage :
    Package} (rearranges : first.Rearranges second) (firstMakes : first.Makes firstPackage)
    (secondMakes : second.Makes secondPackage) :
    packageLines firstPackage = packageLines secondPackage := by
  have agree := rearranges.agree firstMakes secondMakes
  have sameGlobals : sortedEntries firstPackage.globals = sortedEntries secondPackage.globals := by
    simpa using map_sortedEntries id id firstMakes.globalNames secondMakes.globalNames
      fun name => congrArg (Option.map id) (agree.globals name)
  have sameFunctions :
      sortedEntries firstPackage.functions = sortedEntries secondPackage.functions := by
    simpa using map_sortedEntries id id firstMakes.functionNames secondMakes.functionNames
      fun name => congrArg (Option.map id) (agree.functions name)
  unfold packageLines
  rw [agree.name, agree.init, sameGlobals, sameFunctions]

/-- Under every name, both programs have what two corresponding declarations make, or nothing. -/
theorem Rearranges.rel_packages {first second : Manifest} {firstLoaded secondLoaded : Loaded}
    (rearranges : first.Rearranges second) (firstMakes : first.Makes firstLoaded)
    (secondMakes : second.Makes secondLoaded) (name : String) :
    Option.Rel (fun firstPackage secondPackage => ∃ firstEntry secondEntry : PackageEntry,
        firstEntry.Rearranges secondEntry ∧ firstEntry.Makes firstPackage ∧
          secondEntry.Makes secondPackage)
      (firstLoaded.program.packages.get? name) (secondLoaded.program.packages.get? name) := by
  have declared : Option.Rel PackageEntry.Rearranges (declaredPackage? first.packages name)
      (declaredPackage? second.packages name) := rearranges.packages.rel_last name
  have firstRel := firstMakes.packages name
  have secondRel := secondMakes.packages name
  generalize declaredPackage? first.packages name = firstDeclared at declared firstRel
  generalize declaredPackage? second.packages name = secondDeclared at declared secondRel
  generalize firstLoaded.program.packages.get? name = firstFound at firstRel ⊢
  generalize secondLoaded.program.packages.get? name = secondFound at secondRel ⊢
  cases declared with
  | none =>
      cases firstRel
      cases secondRel
      exact .none
  | some isPair =>
      cases firstRel with
      | some ofFirst =>
          cases secondRel with
          | some ofSecond => exact .some ⟨_, _, isPair, ofFirst, ofSecond⟩

theorem Rearranges.agrees {first second : Manifest} {firstLoaded secondLoaded : Loaded}
    (rearranges : first.Rearranges second) (firstMakes : first.Makes firstLoaded)
    (secondMakes : second.Makes secondLoaded) : firstLoaded.Agrees secondLoaded := by
  have found := rearranges.rel_packages firstMakes secondMakes
  have sameConstants : firstLoaded.constants = secondLoaded.constants := by
    rw [firstMakes.constants, secondMakes.constants, rearranges.constants]
  have sameLines : ∀ name, (firstLoaded.program.packages.get? name).map packageLines =
      (secondLoaded.program.packages.get? name).map packageLines := by
    intro name
    have rel := found name
    generalize firstLoaded.program.packages.get? name = firstFound at rel ⊢
    generalize secondLoaded.program.packages.get? name = secondFound at rel ⊢
    cases rel with
    | none => rfl
    | some isPair =>
        obtain ⟨_, _, isPair, ofFirst, ofSecond⟩ := isPair
        exact congrArg some (isPair.lines ofFirst ofSecond)
  have sortedLines := congrArg (List.flatMap Prod.snd) (map_sortedEntries packageLines packageLines
    firstMakes.packageNames secondMakes.packageNames sameLines)
  rw [List.flatMap_map, List.flatMap_map] at sortedLines
  refine ⟨?_, fun name => ?_, fun key => ?_, ?_, sameConstants⟩
  · unfold Loaded.listing
    rw [sortedLines, sameConstants]
  · have rel := found name
    generalize firstLoaded.program.packages.get? name = firstFound at rel ⊢
    generalize secondLoaded.program.packages.get? name = secondFound at rel ⊢
    cases rel with
    | none => exact .none
    | some isPair =>
        obtain ⟨_, _, isPair, ofFirst, ofSecond⟩ := isPair
        exact .some (isPair.agree ofFirst ofSecond)
  · rw [firstMakes.bodies, secondMakes.bodies, rearranges.lastBody?]
  · rw [firstMakes.sizes, secondMakes.sizes, rearranges.globals]

/-- The order of differently named declarations does not matter: both manifests are accepted or none is,
and what is loaded from them is listed alike and is the same under every name. -/
theorem load_agrees_of_rearranges {first second : Manifest} (rearranges : first.Rearranges second) :
    ((∃ loaded, first.load = .ok loaded) ↔ ∃ loaded, second.load = .ok loaded) ∧
      ∀ firstLoaded secondLoaded, first.load = .ok firstLoaded → second.load = .ok secondLoaded →
        firstLoaded.Agrees secondLoaded := by
  refine ⟨?_, fun firstLoaded secondLoaded firstLoads secondLoads =>
    rearranges.agrees (makes_of_load firstLoads) (makes_of_load secondLoads)⟩
  rw [exists_load_iff, exists_load_iff]
  exact ⟨fun accepted => accepted.rearranged rearranges,
    fun accepted => accepted.rearranged rearranges.symm⟩

/-- A counter beside an empty package.  Globals, functions and packages come in a given order. -/
def counterBeside (globals : List GlobalEntry → List GlobalEntry)
    (functions : List UnitEntry → List UnitEntry)
    (packages : List PackageEntry → List PackageEntry) : Manifest where
  globals := { longs := 1, strings := 1 }
  packages := packages [{
    name := "counter"
    globals := globals [⟨"total", 0, .int⟩, ⟨"label", 0, .text⟩]
    init := some ⟨initUnitName, false, [], [],
      [⟨defaultWorkerName, { longs := 1 }, [.storeGlobal .int 0 0]⟩]⟩
    functions := functions [⟨"set", true, [.int], [],
      [⟨defaultWorkerName, .zero, [.storeGlobal .int 0 0]⟩]⟩, ⟨"get", false, [], [.int],
      [⟨defaultWorkerName, { longs := 1 }, [.loadGlobal .int 0 0, .storeReturn .int 0 0]⟩]⟩] },
    ⟨"about", [], none, []⟩]
  constants := [⟨"counter", "label"⟩]

/-- The counter declared forwards and the counter declared backwards are loaded alike, though their
packages are held in different orders. -/
theorem counter_agrees_backwards :
    (counterBeside id id id).Rearranges (counterBeside .reverse .reverse .reverse) ∧
      ∃ forwards backwards, (counterBeside id id id).load = .ok forwards ∧
        (counterBeside .reverse .reverse .reverse).load = .ok backwards ∧
        forwards.Agrees backwards ∧
        forwards.program.packages.keys = ["counter", "about"] ∧
        backwards.program.packages.keys = ["about", "counter"] := by
  have reversed : ∀ {Entry : Type} {name : Entry → String} (entries : List Entry),
      (entries.map name).Nodup → Rearranged name Eq entries entries.reverse := by
    intro Entry name entries distinct
    refine rearranged_of_perm (fun _ _ same => congrArg name same) (List.forall₂_refl entries)
      entries.reverse_perm.symm ?_
    exact (entries.reverse_perm.map name).nodup_iff.mpr distinct
  have rearranges : (counterBeside id id id).Rearranges
      (counterBeside .reverse .reverse .reverse) := by
    refine ⟨rfl, rfl, rearranged_of_perm (fun _ _ isPair => isPair.name) (.cons ?_ (.cons ?_ .nil))
      (List.reverse_perm _).symm (by decide)⟩
    · exact ⟨rfl, rfl, reversed _ (by decide), reversed _ (by decide)⟩
    · exact ⟨rfl, rfl, reversed _ (by decide), reversed _ (by decide)⟩
  obtain ⟨accepts, agree⟩ := load_agrees_of_rearranges rearranges
  obtain ⟨forwards, forwardsLoads⟩ :
    ∃ loaded, (counterBeside id id id).load = .ok loaded := ⟨_, rfl⟩
  obtain ⟨backwards, backwardsLoads⟩ := accepts.mp ⟨forwards, forwardsLoads⟩
  refine ⟨rearranges, forwards, backwards, forwardsLoads, backwardsLoads,
    agree _ _ forwardsLoads backwardsLoads, ?_, ?_⟩
  · cases forwardsLoads
    rfl
  · cases backwardsLoads
    rfl

end Manifest

end WorkerMachine
