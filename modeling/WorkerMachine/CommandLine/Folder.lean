import WorkerMachine.CommandLine.SafePath
/-!
# Folders

Files that are held in memory and found by relative paths, step by step, as a system finds files
below a directory.  Where no file is found, the reason is that of the first step that fails.
-/

namespace WorkerMachine.CommandLine

inductive PathProblem where
  | missing
  | notDirectory
  | isDirectory
  | tooLong
  deriving DecidableEq, Repr

def PathProblem.message : PathProblem → String
  | missing => "No such file or directory (os error 2)"
  | notDirectory => "Not a directory (os error 20)"
  | isDirectory => "Is a directory (os error 21)"
  | tooLong => "File name too long (os error 36)"

def stepLimit : Nat := 255

def pathLimit : Nat := 4095

/-- The steps of a path: its parts, without empty ones and those that stay where they are. -/
def pathSteps (path : String) : List String :=
  (((pathParts path.toList).filter fun part => part ≠ [] && part ≠ ['.'])).map String.ofList

def endsInDirectory (path : String) : Bool :=
  match (pathParts path.toList).getLast? with
  | some part => part = [] || part = ['.']
  | none => false

structure Folder (Content : Type) where
  files : List (List String × Content)

namespace Folder

variable {Content : Type}

def ofPaths (files : List (String × Content)) : Folder Content :=
  ⟨files.map fun file => (pathSteps file.1, file.2)⟩

/-- Whether some steps lead to a directory: to the folder itself, or to one that files lie below. -/
def hasDirectory (folder : Folder Content) (steps : List String) : Bool :=
  steps = [] || folder.files.any fun file => steps.isPrefixOf file.1 && steps ≠ file.1

/-- Go from the directory at `passed` on. -/
def walk (folder : Folder Content) (asDirectory : Bool) (passed : List String) :
    List String → Except PathProblem Content
  | [] => .error .isDirectory
  | step :: rest =>
    if stepLimit < step.utf8ByteSize then .error .tooLong
    else
      let reached := passed ++ [step]
      match folder.files.lookup reached with
      | some content =>
        if rest = [] && !asDirectory then .ok content else .error .notDirectory
      | none =>
        if folder.hasDirectory reached then folder.walk asDirectory reached rest
        else .error .missing

/-- Find a file by its path.  Nothing is found under an empty path, and nothing outside the folder
except the directory that holds everything. -/
def find (folder : Folder Content) (path : String) : Except PathProblem Content :=
  if pathLimit < path.utf8ByteSize then .error .tooLong
  else if path = "" then .error .missing
  else if path.startsWith "/" then
    .error (if pathSteps path = [] then .isDirectory else .missing)
  else folder.walk (endsInDirectory path) [] (pathSteps path)

/-- What is found on the way from a directory is a file whose steps are those of the whole way. -/
theorem lookup_of_walk {folder : Folder Content} {asDirectory : Bool} {passed steps : List String}
    {content : Content} (found : folder.walk asDirectory passed steps = .ok content) :
    folder.files.lookup (passed ++ steps) = some content := by
  induction steps generalizing passed with
  | nil => cases found
  | cons step rest inductionHypothesis =>
    simp only [walk] at found
    split at found
    · cases found
    · split at found
      · next fileThere =>
        split at found
        · next atEnd =>
          have noRest : rest = [] := by
            simp only [Bool.and_eq_true, decide_eq_true_eq] at atEnd
            exact atEnd.1
          injection found with same
          rw [noRest, fileThere, same]
        · cases found
      · split at found
        · rw [← List.singleton_append, ← List.append_assoc]
          exact inductionHypothesis found
        · cases found

end Folder

end WorkerMachine.CommandLine
