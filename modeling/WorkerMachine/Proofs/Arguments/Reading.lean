import WorkerMachine.CommandLine.Execution
import WorkerMachine.Proofs.Manifest.Bodies
import WorkerMachine.Proofs.Registers.Lowering
/-!
# Arguments as they are read

The command line looks for the unit of a call in order to read the arguments as its parameters want
them, and the machine looks for it again.  Both find the same unit, or the machine tells what is wrong:
the arguments are read one by one for a unit with as many parameters, and as texts where the call will
be rejected.  What has been read is of the banks that are declared.
-/

namespace WorkerMachine

/-- The unit that a call by name with so many arguments is for.  An unknown package, an unknown function
and a wrong number of arguments are told in this order. -/
def Program.target (program : Program) (package function : String) (count : Nat) :
    Except Fault Callable :=
  match program.packages.get? package with
  | none => .error (.packageNotFound package)
  | some found =>
    match found.functions.get? function with
    | none => .error (.functionNotFound package function)
    | some unit =>
      if unit.params.length = count then .ok unit
      else .error (.arityMismatch unit.qualifiedName unit.params.length count)

/-- A call that is for a unit is for the one that is found under the names, with so many parameters. -/
theorem Program.target_eq_ok_iff {program : Program} {package function : String} {count : Nat}
    {unit : Callable} :
    program.target package function count = .ok unit ↔
      ∃ found, program.packages.get? package = some found ∧
        found.functions.get? function = some unit ∧ unit.params.length = count := by
  unfold target
  constructor
  · intro isTarget
    split at isTarget
    · cases isTarget
    · next found isPackage =>
      split at isTarget
      · cases isTarget
      · next unit isFunction =>
        split at isTarget
        · next sameLength =>
          cases isTarget
          exact ⟨found, isPackage, isFunction, sameLength⟩
        · cases isTarget
  · rintro ⟨found, isPackage, isFunction, sameLength⟩
    simp only [isPackage, isFunction, sameLength, if_true]

theorem Layout.types_of_ofTypes {types : List DataType} {layout : Layout}
    (laidOut : ofTypes types = .ok layout) : layout.types = types := by
  unfold ofTypes at laidOut
  split at laidOut
  · cases laidOut
  · cases laidOut
    rfl

theorem Manifest.laidOut_of_target {manifest : Manifest} {loaded : Manifest.Loaded}
    (loads : manifest.load = .ok loaded) {package function : String} {count : Nat} {unit : Callable}
    (isTarget : loaded.program.target package function count = .ok unit) :
    Layout.ofTypes unit.params.types = .ok unit.params := by
  obtain ⟨found, isPackage, isFunction, _⟩ := Program.target_eq_ok_iff.mp isTarget
  obtain ⟨⟨packages, isProgram, load⟩, _⟩ := of_load loads
  have isFound : loaded.program.package package = .ok found := by
    rw [Program.package, isPackage]
  rw [isProgram] at isFound
  obtain ⟨entry, _, loadsEntry⟩ := exists_declaredPackage? load manifest.globals isFound
  obtain ⟨declared, _, builds, _⟩ := loadsEntry.functions function unit isFunction
  have laidOut := (Callable.builtFrom_of_build builds).params
  rw [Layout.types_of_ofTypes laidOut]
  exact laidOut

theorem Manifest.length_types_of_target {manifest : Manifest} {loaded : Manifest.Loaded}
    (loads : manifest.load = .ok loaded) {package function : String} {count : Nat} {unit : Callable}
    (isTarget : loaded.program.target package function count = .ok unit) :
    unit.params.types.length = count := by
  obtain ⟨_, _, _, sameLength⟩ := Program.target_eq_ok_iff.mp isTarget
  have assigned := Layout.assign_of_ofTypes (laidOut_of_target loads isTarget)
  exact (Layout.length_of_assign assigned).symm.trans sameLength

namespace CommandLine

/-- Values that have been read from texts, each as a value of the type that is declared for it. -/
inductive ReadAs : List DataType → List String → List Value → Prop
  | nil : ReadAs [] [] []
  | cons {type : DataType} {text : String} {value : Value} {types : List DataType}
      {written : List String} {values : List Value} :
      readArgument type text = .ok value → ReadAs types written values →
      ReadAs (type :: types) (text :: written) (value :: values)

/-- The first text that cannot be read as a value of the type that is declared for it. -/
structure FirstUnread (types : List DataType) (written : List String) (position : Nat)
    (type : DataType) (text : String) (cause : ArgumentError) : Prop where
  declares : types[position]? = some type
  writes : written[position]? = some text
  fails : readArgument type text = .error cause
  reads : ∃ values, ReadAs (types.take position) (written.take position) values

variable {types : List DataType} {written : List String} {values : List Value}

theorem ReadAs.banks (read : ReadAs types written values) :
    types.map DataType.bank? = values.map fun value => some value.bank := by
  induction read with
  | nil => rfl
  | cons reads _ inductionHypothesis =>
      rw [List.map_cons, List.map_cons, bank_of_readArgument reads, inductionHypothesis]

/-- As many texts as there are types are read if each is read as a value of its type. -/
theorem readAll_eq_ok_iff (sameLength : types.length = written.length) :
    readAll types written = .ok values ↔ ReadAs types written values := by
  constructor
  · intro isRead
    induction types generalizing written values with
    | nil =>
        obtain rfl : written = [] := List.eq_nil_of_length_eq_zero sameLength.symm
        cases isRead
        exact .nil
    | cons type types inductionHypothesis =>
        cases written with
        | nil => cases sameLength
        | cons text written =>
            unfold readAll at isRead
            split at isRead
            · cases isRead
            · next value reads =>
              cases rest : readAll types written with
              | error cause =>
                  rw [rest] at isRead
                  cases isRead
              | ok others =>
                  rw [rest] at isRead
                  cases isRead
                  exact .cons reads (inductionHypothesis (Nat.succ.inj sameLength) rest)
  · intro read
    induction read with
    | nil => rfl
    | cons reads _ inductionHypothesis =>
        rw [readAll, reads]
        dsimp only
        rw [inductionHypothesis (Nat.succ.inj sameLength)]
        rfl

theorem firstUnread_zero_iff {type later : DataType} {text other : String} {cause : ArgumentError} :
    FirstUnread (type :: types) (text :: written) 0 later other cause ↔
      later = type ∧ other = text ∧ readArgument type text = .error cause := by
  constructor
  · intro first
    cases first.declares
    cases first.writes
    exact ⟨rfl, rfl, first.fails⟩
  · rintro ⟨rfl, rfl, fails⟩
    exact ⟨rfl, rfl, fails, [], .nil⟩

theorem firstUnread_succ_iff {type later : DataType} {text other : String} {position : Nat}
    {cause : ArgumentError} :
    FirstUnread (type :: types) (text :: written) (position + 1) later other cause ↔
      (∃ value, readArgument type text = .ok value) ∧
        FirstUnread types written position later other cause := by
  constructor
  · intro first
    obtain ⟨values, read⟩ := first.reads
    cases read with
    | @cons _ _ value _ _ values reads readRest =>
        exact ⟨⟨value, reads⟩, first.declares, first.writes, first.fails, values, readRest⟩
  · rintro ⟨⟨value, reads⟩, first⟩
    obtain ⟨values, readRest⟩ := first.reads
    exact ⟨first.declares, first.writes, first.fails, value :: values, .cons reads readRest⟩

/-- Reading stops at the first text that cannot be read. -/
theorem readAll_eq_error_iff {cause : ArgumentError} :
    readAll types written = .error cause ↔
      ∃ position type text, FirstUnread types written position type text cause := by
  induction types generalizing written with
  | nil => exact ⟨nofun, fun ⟨_, _, _, first⟩ => nomatch first.declares⟩
  | cons type types inductionHypothesis =>
      cases written with
      | nil => exact ⟨nofun, fun ⟨_, _, _, first⟩ => nomatch first.writes⟩
      | cons text written =>
          have stops : readAll (type :: types) (text :: written) = .error cause ↔
              readArgument type text = .error cause ∨
                (∃ value, readArgument type text = .ok value) ∧
                  readAll types written = .error cause := by
            rw [readAll]
            cases readArgument type text with
            | error other => simp
            | ok value => cases readAll types written <;> simp [Except.map]
          rw [stops, inductionHypothesis]
          constructor
          · rintro (fails | ⟨reads, position, later, other, first⟩)
            · exact ⟨0, type, text, firstUnread_zero_iff.mpr ⟨rfl, rfl, fails⟩⟩
            · exact ⟨position + 1, later, other, firstUnread_succ_iff.mpr ⟨reads, first⟩⟩
          · rintro ⟨position, later, other, first⟩
            cases position with
            | zero => exact .inl (firstUnread_zero_iff.mp first).2.2
            | succ position =>
                obtain ⟨reads, rest⟩ := firstUnread_succ_iff.mp first
                exact .inr ⟨reads, position, later, other, rest⟩

/-- Arguments are read for the unit that the call is for.  Those of a call that is rejected are texts. -/
theorem readArguments_eq (program : Program) (package function : String) (written : List String) :
    readArguments program package function written =
      match program.target package function written.length with
      | .ok unit => readAll unit.params.types written
      | .error _ => .ok (written.map .text) := by
  unfold readArguments Program.target
  cases program.packages.get? package with
  | none => rfl
  | some found =>
      dsimp only
      cases found.functions.get? function with
      | none => rfl
      | some unit =>
          by_cases sameLength : unit.params.length = written.length
          · simp only [sameLength, if_true]
          · simp only [sameLength, if_false]

/-- Arguments that are read for a unit of a loaded program are lowered without fail. -/
theorem ReadAs.exists_lower {layout : Layout}
    (laidOut : Layout.ofTypes layout.types = .ok layout)
    (read : ReadAs layout.types written values) :
    ∃ file, Marshalling.lower layout values = .ok file := by
  have sound := Layout.sound_of_ofTypes laidOut
  have declared : layout.types.map DataType.bank? = layout.banks.map some :=
    Layout.banks_of_assign (Layout.assign_of_ofTypes laidOut)
  have matching : layout.banks = values.map Value.bank := by
    have same : layout.banks.map some = (values.map Value.bank).map some := by
      rw [← declared, read.banks, List.map_map]
      rfl
    exact (List.map_inj_right fun _ _ => Option.some.inj).mp same
  exact (Marshalling.lower_iff sound).mpr matching

end CommandLine

end WorkerMachine
