import WorkerMachine.Machine.Initialization
import WorkerMachine.Proofs.Manifest.Declarations
import WorkerMachine.Proofs.Registers.Copying
/-!
# Verdicts on constants

Whether the constants of a package can be read is decided by their declarations alone: each has to
name a global of the package, of a type that constants can have.  Where the globals of the package lie
inside global memory, reading the constants from it comes to this verdict, whatever the memory holds.
-/

namespace WorkerMachine

namespace Package

/-- The package has a global of this name, of a type that constants can have. -/
def Declares (package : Package) (name : String) : Prop :=
  ∃ entry, package.globals.get? name = some entry ∧
    entry.type ∈ [DataType.boolean, .int, .float, .text]

/-- What is wrong with the declaration of a constant, if something is. -/
def offence? (package : Package) (constant : ConstantAttribute) : Option Fault :=
  match package.globals.get? constant.name with
  | none => some (.unknownConstant constant.package constant.name)
  | some entry =>
    if entry.type.isConstantType then none
    else some (.unsupportedConstantType constant.package constant.name entry.type.name)

/-- What reading some constants comes to: the first offence among them, if there is one. -/
def verdict (package : Package) (constants : List ConstantAttribute) : Except Fault Unit :=
  match constants.findSome? package.offence? with
  | none => .ok ()
  | some fault => .error fault

/-- A fault is about the first of some constants that the package does not declare. -/
def Offends (package : Package) (constants : List ConstantAttribute) (fault : Fault) : Prop :=
  ∃ before offending after, constants = before ++ offending :: after ∧
    (∀ earlier ∈ before, package.Declares earlier.name) ∧ ¬ package.Declares offending.name ∧
    (package.globals.get? offending.name = none ∧
        fault = .unknownConstant offending.package offending.name ∨
      ∃ entry, package.globals.get? offending.name = some entry ∧
        fault = .unsupportedConstantType offending.package offending.name entry.type.name)

/-- The globals of the package lie inside a memory of these sizes. -/
def Within (package : Package) (sizes : BankSizes) : Prop :=
  ∀ name entry bank, package.globals.get? name = some entry → entry.type.bank? = some bank →
    entry.index < sizes.get bank

variable {package : Package} {constant : ConstantAttribute} {constants : List ConstantAttribute}
  {fault : Fault} {globals : RegisterFile}

/-! ## Offences -/

theorem offence?_eq_none_iff : package.offence? constant = none ↔ package.Declares constant.name := by
  unfold offence? Declares
  cases package.globals.get? constant.name with
  | none => simp
  | some entry => cases isType : entry.type <;> simp [isType, DataType.isConstantType]

theorem verdict_eq_ok_iff :
    package.verdict constants = .ok () ↔
      ∀ constant ∈ constants, package.Declares constant.name := by
  have none_iff : constants.findSome? package.offence? = none ↔
      ∀ constant ∈ constants, package.Declares constant.name := by
    rw [List.findSome?_eq_none_iff]
    exact forall₂_congr fun _ _ => offence?_eq_none_iff
  rw [← none_iff]
  unfold verdict
  split
  · next isNone => simp [isNone]
  · next isSome => simp [isSome]

theorem offence?_eq_some (offends : package.offence? constant = some fault) :
    package.globals.get? constant.name = none ∧
        fault = .unknownConstant constant.package constant.name ∨
      ∃ entry, package.globals.get? constant.name = some entry ∧
        fault = .unsupportedConstantType constant.package constant.name entry.type.name := by
  unfold offence? at offends
  split at offends
  · next isMissing => exact .inl ⟨isMissing, (Option.some.inj offends).symm⟩
  · next entry found =>
    split at offends
    · cases offends
    · exact .inr ⟨entry, found, (Option.some.inj offends).symm⟩

theorem offends_of_verdict (fails : package.verdict constants = .error fault) :
    package.Offends constants fault := by
  unfold verdict at fails
  split at fails
  · cases fails
  · next other isFirst =>
    cases fails
    obtain ⟨before, offending, after, isList, offends, earlier⟩ :=
      List.findSome?_eq_some_iff.mp isFirst
    refine ⟨before, offending, after, isList, ?_, ?_, offence?_eq_some offends⟩
    · exact fun constant member => offence?_eq_none_iff.mp (earlier constant member)
    · intro declares
      rw [offence?_eq_none_iff.mpr declares] at offends
      cases offends

end Package

/-! ## Reading constants -/

theorem Constant.exists_ofValue? {type : DataType} {bank : Bank} {value : Value}
    (isConstantType : type.isConstantType = true) (ofBank : type.bank? = some bank)
    (isValue : value.bank = bank) : ∃ constant, Constant.ofValue? value = some constant := by
  cases type <;> cases isConstantType <;> cases ofBank <;> cases value <;> cases isValue <;>
    exact ⟨_, rfl⟩

theorem DataType.exists_bank? {type : DataType} (isConstantType : type.isConstantType = true) :
    ∃ bank, type.bank? = some bank := by
  cases type <;> cases isConstantType <;> exact ⟨_, rfl⟩

theorem RegisterFile.exists_get? {file : RegisterFile} {slot : Slot}
    (inside : slot.index < file.sizes.get slot.bank) :
    ∃ value, file.get? slot = some value ∧ value.bank = slot.bank := by
  obtain ⟨cell, found⟩ := exists_cell?_of_lt inside
  refine ⟨cell.toValue, ?_, ?_⟩
  · unfold get?
    rw [found]
    rfl
  · rw [Cell.bank_toValue]
    exact bank_of_cell? found

namespace Package

variable {package : Package} {constant : ConstantAttribute} {constants : List ConstantAttribute}
  {fault : Fault} {globals : RegisterFile}

theorem exists_of_readConstant (within : package.Within globals.sizes)
    (declared : package.offence? constant = none) :
    ∃ value, readConstant package globals constant = .ok value := by
  unfold offence? at declared
  unfold readConstant
  cases found : package.globals.get? constant.name with
  | none =>
    rw [found] at declared
    cases declared
  | some entry =>
    rw [found] at declared
    have isConstantType : entry.type.isConstantType = true := by
      by_contra notConstant
      simp [notConstant] at declared
    obtain ⟨bank, ofBank⟩ := DataType.exists_bank? isConstantType
    obtain ⟨value, isValue, sameBank⟩ :=
      @RegisterFile.exists_get? globals ⟨bank, entry.index⟩ (within _ entry bank found ofBank)
    obtain ⟨read, isRead⟩ := Constant.exists_ofValue? isConstantType ofBank sameBank
    refine ⟨read, ?_⟩
    simp only [isConstantType, ofBank, isValue, isRead]

theorem readConstant_of_offence? (offends : package.offence? constant = some fault) :
    readConstant package globals constant = .error fault := by
  unfold offence? at offends
  unfold readConstant
  cases found : package.globals.get? constant.name with
  | none =>
    rw [found] at offends
    cases offends
    rfl
  | some entry =>
    rw [found] at offends
    cases isConstantType : entry.type.isConstantType with
    | true => simp [isConstantType] at offends
    | false =>
      simp only [isConstantType, Bool.false_eq_true, if_false, Option.some.injEq] at offends
      simp only [isConstantType, offends]

/-- Where the globals of a package lie inside global memory, reading constants from it comes to the
verdict on their declarations. -/
theorem readConstants_verdict (within : package.Within globals.sizes)
    (constants : List ConstantAttribute) :
    (readConstants package globals constants).map (fun _ => ()) = package.verdict constants := by
  induction constants with
  | nil => rfl
  | cons constant rest inductionHypothesis =>
    unfold verdict at inductionHypothesis ⊢
    unfold readConstants
    rw [List.findSome?_cons]
    cases isOffence : package.offence? constant with
    | some fault =>
      rw [readConstant_of_offence? isOffence]
      rfl
    | none =>
      obtain ⟨value, isRead⟩ := exists_of_readConstant within isOffence
      simp only [isRead]
      rw [← inductionHypothesis]
      cases readConstants package globals rest <;> rfl

end Package

/-! ## Loaded packages -/

namespace Manifest

variable {sizes : BankSizes} {package extended : Package}

/-- The loader looks after the slots of all globals. -/
theorem within_of_addGlobals {entries : List GlobalEntry} (within : package.Within sizes)
    (added : addGlobals sizes package entries = .ok extended) : extended.Within sizes := by
  induction entries generalizing package with
  | nil =>
    cases added
    exact within
  | cons entry rest inductionHypothesis =>
    unfold addGlobals at added
    split at added
    · cases added
    · next bank ofBank =>
      split at added
      · next inside =>
        refine inductionHypothesis ?_ added
        intro name found other isFound ofOther
        unfold Package.addGlobal at isFound
        rw [Table.get?_insert] at isFound
        split at isFound
        · cases isFound
          cases ofBank.symm.trans ofOther
          exact inside
        · exact within name found other isFound ofOther
      · cases added

theorem globals_of_loadFunctions {bodies after : Bodies} {entries : List UnitEntry}
    (loaded : loadFunctions sizes package bodies entries = .ok (extended, after)) :
    extended.globals = package.globals := by
  induction entries generalizing package bodies with
  | nil =>
    cases loaded
    rfl
  | cons entry rest inductionHypothesis =>
    unfold loadFunctions at loaded
    split at loaded
    · cases loaded
    · dsimp only at loaded
      split at loaded
      · cases loaded
      · have same := inductionHypothesis loaded
        exact same

theorem globals_of_loadInit {bodies after : Bodies} {entry : Option UnitEntry}
    (loaded : loadInit sizes package bodies entry = .ok (extended, after)) :
    extended.globals = package.globals := by
  cases entry with
  | none =>
    cases loaded
    rfl
  | some entry =>
    unfold loadInit at loaded
    dsimp only at loaded
    split at loaded
    · cases loaded
    · cases loaded
      rfl

theorem within_of_loadPackage {entry : PackageEntry} {bodies after : Bodies}
    (loaded : loadPackage sizes entry bodies = .ok (package, after)) : package.Within sizes := by
  unfold loadPackage at loaded
  split at loaded
  · cases loaded
  · next withGlobals added =>
    split at loaded
    · cases loaded
    · next withInit _ initLoaded =>
      have isEmpty : (Package.ofName entry.name).Within sizes := by
        intro name found bank isFound
        cases isFound
      have within := within_of_addGlobals isEmpty added
      unfold Package.Within at within ⊢
      rw [globals_of_loadFunctions loaded, globals_of_loadInit initLoaded]
      exact within

theorem within_of_loadPackages {entries : List PackageEntry} {bodies after : Bodies}
    {packages : List Package} (loaded : loadPackages sizes bodies entries = .ok (packages, after)) :
    ∀ package ∈ packages, package.Within sizes := by
  induction entries generalizing bodies packages with
  | nil =>
    cases loaded
    exact fun _ never => nomatch never
  | cons entry rest inductionHypothesis =>
    unfold loadPackages at loaded
    split at loaded
    · cases loaded
    · next first _ firstLoaded =>
      split at loaded
      · cases loaded
      · next others _ restLoaded =>
        cases loaded
        intro package member
        obtain rfl | isOther := List.mem_cons.mp member
        · exact within_of_loadPackage firstLoaded
        · exact inductionHypothesis restLoaded package isOther

/-- The globals of every package of a loaded program lie inside its global memory. -/
theorem within_of_load {manifest : Manifest} {loaded : Loaded} (loads : manifest.load = .ok loaded)
    {name : String} (found : loaded.program.package name = .ok package) :
    package.Within loaded.program.globalSizes := by
  unfold load at loads
  split at loads
  · cases loads
  · next packages bodies loadedPackages =>
    dsimp only at loads
    split at loads
    · cases loads
    · cases loads
      apply within_of_loadPackages loadedPackages
      unfold Program.package Program.ofPackages at found
      rw [Table.get?_ofList, ← List.map_reverse, List.find?_map] at found
      split at found
      · next isFound =>
        cases found
        rw [Option.map_map] at isFound
        obtain ⟨other, isOther, rfl⟩ := Option.map_eq_some_iff.mp isFound
        exact List.mem_reverse.mp (List.mem_of_find?_eq_some isOther)
      · cases found

end Manifest

end WorkerMachine
