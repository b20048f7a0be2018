/-!
# Paths without a way upwards

Files named on the command line may not climb out of the directory they are looked up in.
-/

namespace WorkerMachine.CommandLine

def pathParts : List Char → List (List Char)
  | [] => [[]]
  | character :: rest =>
    if character = '/' then [] :: pathParts rest
    else match pathParts rest with
      | part :: parts => (character :: part) :: parts
      | [] => [[character]]

def parentDirectoryMessage : String :=
  "Parent directory components ('..') are not allowed in file paths."

/-- Accept a path unless one of its parts is the parent directory. -/
def checkPath (path : String) : Except String String :=
  if (pathParts path.toList).contains ['.', '.'] then .error parentDirectoryMessage else .ok path

theorem pathParts_ne_nil (path : List Char) : pathParts path ≠ [] := by
  cases path with
  | nil => simp [pathParts]
  | cons character rest =>
    simp only [pathParts]
    split
    · simp
    · split <;> simp

/-- The parts of a path, put together again with slashes between them, are the path. -/
theorem intercalate_pathParts (path : List Char) :
    ['/'].intercalate (pathParts path) = path := by
  induction path with
  | nil => rfl
  | cons character rest inductionHypothesis =>
    have someParts := pathParts_ne_nil rest
    simp only [pathParts]
    split
    · next isSlash =>
      cases partsOfRest : pathParts rest with
      | nil => exact absurd partsOfRest someParts
      | cons part parts =>
        rw [partsOfRest] at inductionHypothesis
        simp [List.intercalate, List.intersperse, isSlash] at inductionHypothesis ⊢
        exact inductionHypothesis
    · cases partsOfRest : pathParts rest with
      | nil => exact absurd partsOfRest someParts
      | cons part parts =>
        rw [partsOfRest] at inductionHypothesis
        cases parts with
        | nil => simpa [List.intercalate, List.intersperse] using inductionHypothesis
        | cons next others =>
          simpa [List.intercalate, List.intersperse] using inductionHypothesis

theorem slash_notMem_of_mem_pathParts {path part : List Char} (isPart : part ∈ pathParts path) :
    '/' ∉ part := by
  induction path generalizing part with
  | nil =>
    have isEmpty : part = [] := by simpa [pathParts] using isPart
    simp [isEmpty]
  | cons character rest inductionHypothesis =>
    simp only [pathParts] at isPart
    split at isPart
    · rcases List.mem_cons.mp isPart with isFirst | isLater
      · simp [isFirst]
      · exact inductionHypothesis isLater
    · next noSlash =>
      split at isPart
      · next first others partsOfRest =>
        rcases List.mem_cons.mp isPart with isFirst | isLater
        · have restOfPart : '/' ∉ first :=
            inductionHypothesis (by rw [partsOfRest]; exact List.mem_cons_self)
          simp [isFirst, restOfPart, Ne.symm noSlash]
        · exact inductionHypothesis (by rw [partsOfRest]; exact List.mem_cons_of_mem first isLater)
      · next partsOfRest => exact absurd partsOfRest (pathParts_ne_nil rest)

/-- A path is accepted exactly when none of its parts is the parent directory. -/
theorem checkPath_eq_ok_iff (path : String) :
    checkPath path = .ok path ↔ ['.', '.'] ∉ pathParts path.toList := by
  by_cases climbs : ['.', '.'] ∈ pathParts path.toList <;> simp [checkPath, climbs]

end WorkerMachine.CommandLine
