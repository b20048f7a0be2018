import WorkerMachine.Proofs.Machine.Effects
import WorkerMachine.Proofs.Manifest.Declarations
import WorkerMachine.Script.Interpreter
/-!
# The bodies that units run

A worker runs the body that is found under the names of its unit.  All declarations of a manifest
record their bodies under such names, in one table, so a unit runs its own bodies as long as no other
declaration has the same names.
-/

namespace WorkerMachine

inductive UnitPlace where
  | init
  | function (name : String)

namespace Manifest

/-- The declaration that counts for a place of a package. -/
def declaration? (manifest : Manifest) (package : String) (place : UnitPlace) :
    Option Declaration :=
  (declaredPackage? manifest.packages package).bind fun entry =>
    match place with
    | .init => entry.init.map (initDeclaration entry.name)
    | .function name => (declaredFunction? entry.functions name).map (functionDeclaration entry.name)

def Loaded.unit? (loaded : Loaded) (package : String) (place : UnitPlace) : Option Callable :=
  match loaded.program.package package, place with
  | .error _, _ => none
  | .ok found, .init => found.init
  | .ok found, .function name => (Program.function found package name).toOption

/-- A worker of a unit runs the body that the declaration of the unit has for it, which has been
checked for its own registers, and fails if the declaration has no workers. -/
structure Declaration.RunsOwn (declaration : Declaration) (globals : BankSizes) (bodies : Bodies)
    (unit : Callable) (worker : Worker) : Prop where
  lookup : bodies.get? (unit.bodyKey worker) =
    declaration.entry.workers[worker.index]?.map WorkerEntry.instructions
  missing : bodies.get? (unit.bodyKey worker) = none ↔ declaration.entry.workers = []
  checked : ∀ body, bodies.get? (unit.bodyKey worker) = some body → ∀ instruction ∈ body,
    (⟨worker.locals, unit.returns.sizes, globals⟩ : Script.Footprint).check instruction = .ok ()
  fails : declaration.entry.workers = [] → ∀ (station : Station) (context : Context),
    context.activity = some (unit, worker) →
      (Script.interpreter bodies station).runOn context =
        .done (.error (.fault (.noWorkerBody unit.qualifiedName worker.index)), context)

/-! ## The body of one worker -/

/-- A worker without a body fails. -/
theorem runOn_interpreter_of_missing {bodies : Bodies} {unit : Callable} {worker : Worker}
    (missing : bodies.get? (unit.bodyKey worker) = none) (station : Station) {context : Context}
    (active : context.activity = some (unit, worker)) :
    (Script.interpreter bodies station).runOn context =
      .done (.error (.fault (.noWorkerBody unit.qualifiedName worker.index)), context) := by
  unfold Script.interpreter Interpreter.ofBodies
  rw [Routine.runOn_bind, Routine.runOn_get, Process.done_bind]
  dsimp only
  rw [active]
  dsimp only
  rw [missing]
  exact Routine.runOn_throw _ context

theorem exists_entry_of_mem_numberWorkers {params : BankSizes} {start : Nat}
    {entries : List WorkerEntry} {worker : Worker}
    (member : worker ∈ Callable.numberWorkers params start
      (entries.map fun entry => (entry.name, entry.locals))) :
    start ≤ worker.index ∧ ∃ entry, entries[worker.index - start]? = some entry ∧
      (worker, entry) ∈ (Callable.numberWorkers params start
        (entries.map fun entry => (entry.name, entry.locals))).zip entries := by
  induction entries generalizing start with
  | nil =>
      cases member
  | cons first rest inductionHypothesis =>
      rcases List.mem_cons.mp member with rfl | inRest
      · exact ⟨Nat.le_refl start, first, by simp, List.mem_cons_self⟩
      · obtain ⟨later, entry, found, paired⟩ := inductionHypothesis inRest
        refine ⟨by omega, entry, ?_, List.mem_cons_of_mem _ paired⟩
        have shifted : worker.index - start = worker.index - (start + 1) + 1 := by omega
        rw [shifted]
        exact found

namespace Declaration

variable {declaration : Declaration} {globals : BankSizes} {bodies : Bodies} {unit : Callable}
  {worker : Worker}

theorem body?_bodyKey (builds : declaration.Builds unit) (worker : Worker) :
    declaration.body? (unit.bodyKey worker) =
      declaration.entry.workers[worker.index]?.map WorkerEntry.instructions := by
  have parts := Callable.builtFrom_of_build builds
  rw [body?, Callable.bodyKey, parts.package, parts.name]
  simp

theorem exists_entry (builds : declaration.Builds unit) (member : worker ∈ unit.workers)
    (someDeclared : declaration.entry.workers ≠ []) :
    ∃ entry, declaration.entry.workers[worker.index]? = some entry ∧
      (worker, entry) ∈ unit.workers.zip declaration.entry.workers := by
  have numbered := (Callable.builtFrom_of_build builds).workers
  cases workers : declaration.entry.workers with
  | nil =>
      exact absurd workers someDeclared
  | cons first rest =>
      have isNumbered : unit.workers = Callable.numberWorkers unit.params.sizes 0
          ((first :: rest).map fun entry => (entry.name, entry.locals)) := by
        rw [numbered, workers]
        rfl
      rw [isNumbered] at member ⊢
      exact (exists_entry_of_mem_numberWorkers member).2

/-- A unit runs its own body in a worker as soon as that body is found. -/
theorem runsOwn_of_lookup (yields : declaration.Yields globals unit)
    (member : worker ∈ unit.workers)
    (lookup : bodies.get? (unit.bodyKey worker) =
      declaration.entry.workers[worker.index]?.map WorkerEntry.instructions) :
    declaration.RunsOwn globals bodies unit worker := by
  obtain ⟨builds, checked⟩ := yields
  have missing : bodies.get? (unit.bodyKey worker) = none ↔ declaration.entry.workers = [] := by
    rw [lookup]
    constructor
    · intro isMissing
      by_contra someDeclared
      obtain ⟨entry, found, _⟩ := exists_entry builds member someDeclared
      rw [found] at isMissing
      cases isMissing
    · intro noneDeclared
      rw [noneDeclared]
      rfl
  refine ⟨lookup, missing, fun body isBody => ?_, fun noneDeclared station context active =>
    runOn_interpreter_of_missing (missing.mpr noneDeclared) station active⟩
  have someDeclared : declaration.entry.workers ≠ [] := by
    intro noneDeclared
    rw [missing.mpr noneDeclared] at isBody
    cases isBody
  obtain ⟨entry, found, paired⟩ := exists_entry builds member someDeclared
  rw [lookup, found] at isBody
  cases isBody
  exact checked _ paired

theorem lastBody?_of_unique {declarations : List Declaration} (member : declaration ∈ declarations)
    (unique : ∀ other ∈ declarations, other.package = declaration.package →
      other.name = declaration.name → other = declaration) {key : BodyKey}
    (samePackage : key.package = declaration.package) (sameName : key.unit = declaration.name) :
    lastBody? declarations key = declaration.body? key := by
  have own : ∀ other ∈ declarations, other = declaration ∨ other.body? key = none := by
    intro other isOther
    by_cases sameNames : other.package = key.package ∧ other.name = key.unit
    · exact .inl (unique other isOther (sameNames.1.trans samePackage)
        (sameNames.2.trans sameName))
    · exact .inr (if_neg sameNames)
  clear unique
  induction declarations with
  | nil =>
      cases member
  | cons first rest inductionHypothesis =>
      have restOwn := fun other isOther => own other (List.mem_cons_of_mem _ isOther)
      rw [lastBody?_cons]
      by_cases inRest : declaration ∈ rest
      · rw [inductionHypothesis inRest restOwn]
        rcases own first List.mem_cons_self with rfl | nothing
        · exact Option.or_self
        · rw [nothing, Option.or_none]
      · have isFirst : declaration = first := (List.mem_cons.mp member).resolve_right inRest
        have nothingLater : lastBody? rest key = none := by
          apply List.findSome?_eq_none_iff.mpr
          intro other isOther
          have inRest' := List.mem_reverse.mp isOther
          rcases restOwn other inRest' with rfl | nothing
          · exact absurd inRest' inRest
          · exact nothing
        rw [nothingLater, Option.none_or, isFirst]

end Declaration

/-! ## Loaded programs -/

theorem of_load {manifest : Manifest} {loaded : Loaded} (loads : manifest.load = .ok loaded) :
    (∃ packages, loaded.program = Program.ofPackages packages manifest.globals ∧
      List.Forall₂ (fun entry package => entry.Loads manifest.globals package) manifest.packages
        packages) ∧
    ∀ key, loaded.bodies.get? key = Declaration.lastBody? manifest.declarations key := by
  unfold load at loads
  split at loads
  · cases loads
  · next packages bodies packagesLoaded =>
    dsimp only at loads
    split at loads
    · cases loads
    · cases loads
      obtain ⟨load, lookups⟩ := of_loadPackages packagesLoaded
      refine ⟨⟨packages, rfl, load⟩, fun key => ?_⟩
      rw [lookups, Table.get?_empty, Option.or_none]
      rfl

theorem declaredPackage?_mem {entries : List PackageEntry} {name : String} {entry : PackageEntry}
    (found : declaredPackage? entries name = some entry) : entry ∈ entries :=
  List.mem_reverse.mp (List.mem_of_find?_eq_some found)

theorem declaredFunction?_mem {entries : List UnitEntry} {name : String} {entry : UnitEntry}
    (found : declaredFunction? entries name = some entry) : entry ∈ entries :=
  List.mem_reverse.mp (List.mem_of_find?_eq_some found)

theorem exists_declaration {manifest : Manifest} {loaded : Loaded}
    (loads : manifest.load = .ok loaded) {package : String} {place : UnitPlace} {unit : Callable}
    (found : loaded.unit? package place = some unit) :
    ∃ declaration, manifest.declaration? package place = some declaration ∧
      declaration ∈ manifest.declarations ∧ declaration.Yields manifest.globals unit := by
  obtain ⟨⟨packages, isProgram, load⟩, _⟩ := of_load loads
  unfold Loaded.unit? at found
  rw [isProgram] at found
  cases isPackage : (Program.ofPackages packages manifest.globals).package package with
  | error fault =>
      rw [isPackage] at found
      cases found
  | ok inProgram =>
      obtain ⟨entry, isEntry, loadsEntry⟩ := exists_declaredPackage? load manifest.globals isPackage
      have among := declaredPackage?_mem isEntry
      rw [isPackage] at found
      unfold declaration?
      rw [isEntry, Option.bind_some]
      cases place with
      | init =>
          obtain ⟨declared, isDeclared, yields⟩ := loadsEntry.init unit found
          refine ⟨_, congrArg (Option.map _) isDeclared, ?_, yields⟩
          refine List.mem_flatMap_of_mem among (List.mem_append_left _ ?_)
          rw [isDeclared]
          exact List.mem_singleton_self _
      | function name =>
          have isFunction : inProgram.functions.get? name = some unit := by
            dsimp only [Program.function] at found
            split at found
            · next isFound =>
              cases found
              exact isFound
            · cases found
          obtain ⟨declared, isDeclared, yields⟩ := loadsEntry.functions name unit isFunction
          refine ⟨_, congrArg (Option.map _) isDeclared, ?_, yields⟩
          exact List.mem_flatMap_of_mem among (List.mem_append_right _
            (List.mem_map_of_mem (declaredFunction?_mem isDeclared)))

/-- A unit of a loaded program has come from the declaration that counts for its place.  A worker of
it runs its own body exactly when that is the last one of all that are declared under its names,
which is so whenever no other declaration has the names of the unit. -/
theorem runsOwn_iff {manifest : Manifest} {loaded : Loaded} (loads : manifest.load = .ok loaded)
    {package : String} {place : UnitPlace} {unit : Callable}
    (found : loaded.unit? package place = some unit) :
    ∃ declaration, manifest.declaration? package place = some declaration ∧
      declaration ∈ manifest.declarations ∧ declaration.Builds unit ∧
      ∀ worker ∈ unit.workers,
        (declaration.RunsOwn manifest.globals loaded.bodies unit worker ↔
          Declaration.lastBody? manifest.declarations (unit.bodyKey worker) =
            declaration.body? (unit.bodyKey worker)) ∧
        ((∀ other ∈ manifest.declarations, other.package = declaration.package →
            other.name = declaration.name → other = declaration) →
          declaration.RunsOwn manifest.globals loaded.bodies unit worker) := by
  obtain ⟨declaration, counts, among, yields⟩ := exists_declaration loads found
  have builds := yields.1
  have parts := Callable.builtFrom_of_build builds
  have lookups := (of_load loads).2
  have iffOwn : ∀ worker ∈ unit.workers,
      (declaration.RunsOwn manifest.globals loaded.bodies unit worker ↔
        Declaration.lastBody? manifest.declarations (unit.bodyKey worker) =
          declaration.body? (unit.bodyKey worker)) := by
    intro worker member
    rw [← lookups, Declaration.body?_bodyKey builds]
    exact ⟨fun runsOwn => runsOwn.lookup, Declaration.runsOwn_of_lookup yields member⟩
  refine ⟨declaration, counts, among, builds, fun worker member => ⟨iffOwn worker member, ?_⟩⟩
  intro unique
  exact (iffOwn worker member).mpr
    (Declaration.lastBody?_of_unique among unique parts.package parts.name)

/-- A package with an init unit that needs one integer register, and with a function of some name
whose body works on a second one. -/
def initBeside (function : String) : Manifest where
  globals := { longs := 1 }
  packages := [{
    name := "lib"
    globals := []
    init := some ⟨initUnitName, false, [], [],
      [⟨defaultWorkerName, { longs := 1 }, [.constant 0 (.int 1), .storeGlobal .int 0 0]⟩]⟩
    functions := [⟨function, false, [], [],
      [⟨defaultWorkerName, { longs := 2 }, [.constant 1 (.int 2), .storeGlobal .int 1 0]⟩]⟩] }]
  constants := []

/-- Beside a function of another name, an init unit runs its own body. -/
theorem init_runsOwn_beside_reset :
    ∃ loaded, (initBeside "reset").load = .ok loaded ∧
      ∃ unit, loaded.unit? "lib" .init = some unit ∧
        ∃ declaration, (initBeside "reset").declaration? "lib" .init = some declaration ∧
          declaration.RunsOwn { longs := 1 } loaded.bodies unit unit.callerWorker := by
  obtain ⟨loaded, loads⟩ : ∃ loaded, (initBeside "reset").load = .ok loaded := ⟨_, rfl⟩
  obtain ⟨unit, found⟩ : ∃ unit, loaded.unit? "lib" .init = some unit := by
    cases loads
    exact ⟨_, rfl⟩
  obtain ⟨declaration, counts, _, _, own⟩ := runsOwn_iff loads found
  refine ⟨loaded, loads, unit, found, ?_⟩
  refine ⟨declaration, counts, (own _ List.mem_cons_self).2 ?_⟩
  intro other isOther _ sameName
  cases counts
  rcases List.mem_cons.mp isOther with rfl | isOther
  · rfl
  · rcases List.mem_singleton.mp isOther with rfl
    exact absurd sameName (by decide)

/-- Beside a function that has the name of the init unit, the init unit runs the body of the function,
which has never been checked for the registers of the init unit. -/
theorem init_loses_body_to_namesake :
    ∃ loaded, (initBeside initUnitName).load = .ok loaded ∧
      ∃ unit, loaded.unit? "lib" .init = some unit ∧
        ∃ declaration, (initBeside initUnitName).declaration? "lib" .init = some declaration ∧
          ¬declaration.RunsOwn { longs := 1 } loaded.bodies unit unit.callerWorker ∧
          ∃ body, loaded.bodies.get? (unit.bodyKey unit.callerWorker) = some body ∧
            ∃ instruction ∈ body,
              (⟨unit.callerWorker.locals, unit.returns.sizes, { longs := 1 }⟩ :
                  Script.Footprint).check instruction =
                .error (.outOfRange .locals .int 1 1) := by
  refine ⟨_, rfl, _, rfl, _, rfl, ?_, _, rfl, .constant 1 (.int 2), List.mem_cons_self, rfl⟩
  intro runsOwn
  have sameBody : some [Script.Instruction.constant 1 (.int 2), .storeGlobal .int 1 0] =
      some [.constant 0 (.int 1), .storeGlobal .int 0 0] := runsOwn.lookup
  exact absurd sameBody (by decide)

end Manifest

end WorkerMachine
