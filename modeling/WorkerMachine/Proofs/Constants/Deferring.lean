import WorkerMachine.Host.Globals
import WorkerMachine.Proofs.Clearance.Hosts
import WorkerMachine.Proofs.Constants.Claims
/-!
# Constants of a session that starts

When a session starts, the constants it is given are put on the lists of their packages in order, and
nobody has a claim on a package.
-/

namespace WorkerMachine

def ConstantAttribute.listFrom (cell : Nat) (constants : List (String × String)) :
    List ConstantAttribute :=
  (constants.zipIdx cell).map fun ((package, name), cell) => ⟨package, name, cell⟩

/-- The constants of a package, in the order in which a session is given them. -/
def ConstantAttribute.declaredFor (constants : List (String × String)) (package : String) :
    List ConstantAttribute :=
  (listFrom 0 constants).filter fun constant => constant.package = package

open ConstantAttribute

/-- On the machine of a session wait the constants that have been made, in order. -/
structure Session.Lists (sizes : BankSizes) (session : Session) : Prop where
  sized : session.machine.globals.sizes = sizes
  listed : ∀ package, session.machine.pendingOf package =
    session.attributes.filter fun constant => constant.package = package

namespace Host

theorem run_deferConstant (package name : String) (session : Session) :
    StateT.run (ExceptT.run (deferConstant package name)) session =
      let constant : ConstantAttribute := ⟨package, name, session.attributes.length⟩
      let listing := { session with attributes := session.attributes ++ [constant] }
      match session.setup.program.package package with
      | .ok _ => (.ok (), { listing with machine := session.machine.deferConstant constant })
      | .error fault => (.error (.interrupted (.fault fault)), listing) := by
  have stepped : StateT.run (ExceptT.run (deferConstant package name)) session =
      StateT.run (ExceptT.run (do
        let _ ← ofExcept (session.setup.program.package package)
        alter fun machine => ((), machine.deferConstant
          ⟨package, name, session.attributes.length⟩) : HostStep Unit))
        { session with attributes :=
            session.attributes ++ [⟨package, name, session.attributes.length⟩] } :=
    rfl
  rw [stepped]
  cases session.setup.program.package package <;> rfl

/-- A session that defers constants ends with a fault, or they wait on its machine in order. -/
theorem deferConstants_lists {sizes : BankSizes} (constants : List (String × String))
    {session : Session} (lists : session.Lists sizes) :
    (∃ fault after, StateT.run (ExceptT.run (deferConstants constants)) session =
      (.error (.interrupted (.fault fault)), after)) ∨
    ∃ after, StateT.run (ExceptT.run (deferConstants constants)) session = (.ok (), after) ∧
      after.Lists sizes ∧ after.attributes =
        session.attributes ++ listFrom session.attributes.length constants := by
  induction constants generalizing session with
  | nil => exact .inr ⟨session, rfl, lists, (List.append_nil _).symm⟩
  | cons constant rest inductionHypothesis =>
    obtain ⟨package, name⟩ := constant
    have stepped : StateT.run (ExceptT.run (deferConstants ((package, name) :: rest))) session =
        StateT.run (ExceptT.run (deferConstant package name >>= fun _ => deferConstants rest))
          session :=
      rfl
    rw [stepped, ExceptT.run_bind, StateT.run_bind, run_deferConstant]
    cases session.setup.program.package package with
    | error fault => exact .inl ⟨fault, _, rfl⟩
    | ok _ =>
      have listsAfter : Session.Lists sizes { session with
          attributes := session.attributes ++ [⟨package, name, session.attributes.length⟩]
          machine := session.machine.deferConstant ⟨package, name, session.attributes.length⟩ } := by
        refine ⟨lists.sized, fun asked => ?_⟩
        have pendingOf : (session.machine.deferConstant
            ⟨package, name, session.attributes.length⟩).pendingOf asked =
            session.machine.pendingOf asked ++
              if package = asked then [⟨package, name, session.attributes.length⟩] else [] := by
          unfold Machine.pendingOf Machine.deferConstant
          dsimp only
          rw [Table.get?_insert]
          split
          · next same =>
            subst same
            rfl
          · exact (List.append_nil _).symm
        rw [List.filter_append, ← lists.listed]
        refine pendingOf.trans (congrArg _ ?_)
        by_cases same : package = asked <;> simp [same]
      obtain ⟨fault, after, fails⟩ | ⟨after, succeeds, reached, attributes⟩ :=
        inductionHypothesis listsAfter
      · exact .inl ⟨fault, after, fails⟩
      · refine .inr ⟨after, succeeds, reached, attributes.trans ?_⟩
        simp [listFrom, List.zipIdx_cons]

theorem exists_run_deferConstants {constants : List (String × String)} {session : Session}
    (found : ∀ constant ∈ constants, ∃ package,
      session.setup.program.package constant.1 = .ok package) :
    ∃ after, StateT.run (ExceptT.run (deferConstants constants)) session = (.ok (), after) := by
  induction constants generalizing session with
  | nil => exact ⟨session, rfl⟩
  | cons constant rest inductionHypothesis =>
    obtain ⟨package, name⟩ := constant
    obtain ⟨first, isFound⟩ := found _ List.mem_cons_self
    have stepped : StateT.run (ExceptT.run (deferConstants ((package, name) :: rest))) session =
        StateT.run (ExceptT.run (deferConstant package name >>= fun _ => deferConstants rest))
          session :=
      rfl
    rw [stepped, ExceptT.run_bind, StateT.run_bind, run_deferConstant]
    dsimp only at isFound ⊢
    rw [isFound]
    exact inductionHypothesis fun other member => found other (List.mem_cons_of_mem _ member)

end Host

def Manifest.Loaded.constantNames (loaded : Manifest.Loaded) : List (String × String) :=
  loaded.constants.map fun constant => (constant.package, constant.name)

theorem Manifest.exists_package_of_checkConstants {program : Program} {entries : List ConstantEntry}
    (checked : checkConstants program entries = .ok ()) :
    ∀ entry ∈ entries, ∃ package, program.package entry.package = .ok package := by
  induction entries with
  | nil => exact fun _ never => nomatch never
  | cons entry rest inductionHypothesis =>
    unfold checkConstants at checked
    split at checked
    · cases checked
    · next package found =>
      intro asked member
      obtain rfl | isRest := List.mem_cons.mp member
      · exact ⟨package, found⟩
      · exact inductionHypothesis checked asked isRest

theorem Session.exists_start_of_load {manifest : Manifest} {loaded : Manifest.Loaded}
    (loads : manifest.load = .ok loaded) {setup : Setup} (runs : setup.program = loaded.program)
    (interpreter : Interpreter) (properties : Properties) :
    ∃ session, Session.start setup interpreter properties loaded.constantNames = .ok session := by
  have checked : Manifest.checkConstants loaded.program loaded.constants = .ok () := by
    unfold Manifest.load at loads
    split at loads
    · cases loads
    · dsimp only at loads
      split at loads
      · cases loads
      · next checked =>
        cases loads
        exact checked
  have found : ∀ constant ∈ loaded.constantNames, ∃ package,
      setup.program.package constant.1 = .ok package := by
    intro constant member
    obtain ⟨entry, isEntry, rfl⟩ := List.mem_map.mp member
    rw [runs]
    exact Manifest.exists_package_of_checkConstants checked entry isEntry
  let fresh : Session :=
    { setup := setup, interpreter := interpreter, machine := .start setup.program properties }
  obtain ⟨after, succeeds⟩ : ∃ after, StateT.run (ExceptT.run (Host.deferConstants
      loaded.constantNames)) fresh = (.ok (), after) :=
    Host.exists_run_deferConstants found
  unfold Session.start Host.run
  dsimp only
  rw [succeeds]
  exact ⟨_, rfl⟩

/-- When a session has started, global memory has the sizes of the program, and the constants wait for
their packages in order. -/
theorem Session.start_lists {setup : Setup} {interpreter : Interpreter} {properties : Properties}
    {constants : List (String × String)} {session : Session}
    (starts : Session.start setup interpreter properties constants = .ok session) :
    session.machine.globals.sizes = setup.program.globalSizes ∧
      session.machine.pendingOf = declaredFor constants := by
  have fresh : Session.Lists setup.program.globalSizes
      { setup := setup, interpreter := interpreter, machine := .start setup.program properties } :=
    ⟨RegisterFile.sizes_ofSizes _, fun _ => rfl⟩
  unfold Session.start Host.run at starts
  dsimp only at starts
  obtain ⟨fault, after, fails⟩ | ⟨after, succeeds, lists, attributes⟩ :=
    Host.deferConstants_lists constants fresh
  · rw [fails] at starts
    cases starts
  · rw [succeeds] at starts
    cases starts
    refine ⟨lists.sized, funext fun package => ?_⟩
    have listed := lists.listed package
    rw [attributes] at listed
    exact listed

theorem Session.start_claimed {Thread : Type} {setup : Setup} {interpreter : Interpreter}
    {properties : Properties} {constants : List (String × String)} {session : Session}
    (starts : Session.start setup interpreter properties constants = .ok session) :
    Claimed setup.program (declaredFor constants) session.machine fun _ : Thread => [] := by
  obtain ⟨sized, listed⟩ := Session.start_lists starts
  have none : ∀ {claim : Claim} {Result : Prop}, claim ∈ [] → Result := fun never => nomatch never
  refine ⟨sized, fun _ _ => none, fun _ _ => none, fun _ _ _ => none, fun _ => List.nodup_nil, ?_, ?_⟩
  · exact fun package _ => congrFun listed package
  · intro name package outcome _ settled
    rw [(Session.start_fresh starts).gate] at settled
    cases settled

end WorkerMachine
