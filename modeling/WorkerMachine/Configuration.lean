import WorkerMachine.Decimal.Reading
import WorkerMachine.Fault
import WorkerMachine.Machine.Policy
import WorkerMachine.Text.Blank
import WorkerMachine.Toml.Basic
import WorkerMachine.Toml.Document
/-!
# Configuration

The scheduler is configured by a TOML document, every part of which may be missing, and then by
variables of the environment, which override the document.  One more variable both switches tracing
on and says what is traced.
-/

namespace WorkerMachine.Configuration

/-! ## The scheduler -/

inductive SchedulerKind where
  | multiThread
  | currentThread
  | threads
  deriving DecidableEq, Repr, Inhabited

namespace SchedulerKind

def name : SchedulerKind → String
  | multiThread => "multi_thread"
  | currentThread => "current_thread"
  | threads => "threads"

def ofName? (written : String) : Option SchedulerKind :=
  if written = "multi_thread" then some multiThread
  else if written = "current_thread" then some currentThread
  else if written = "threads" then some threads
  else none

/-- The kind of a name or a short name; blanks around it, letter case, and the choice between
hyphens and underscores do not matter. -/
def read? (written : String) : Option SchedulerKind :=
  let folded := (Text.foldCase (Text.trim written)).map fun character =>
    if character = '-' then '_' else character
  if folded = "multi_thread" || folded = "multi" then some multiThread
  else if folded = "current_thread" || folded = "single" then some currentThread
  else if folded = "threads" || folded = "thread" then some threads
  else none

theorem ofName?_name (kind : SchedulerKind) : ofName? kind.name = some kind := by
  cases kind <;> decide

end SchedulerKind

structure SchedulerSettings where
  kind : SchedulerKind := .multiThread
  workerThreads : Option Nat := none
  maxBlockingThreads : Option Nat := none
  threadName : String := Policy.usualThreadName
  deriving DecidableEq, Repr, Inhabited

namespace SchedulerSettings

/-- Read the settings from a table.  Unknown keys are ignored. -/
def ofToml? (value : Toml) : Option SchedulerSettings := do
  let entries ← value.entries?
  let kind ← Toml.fieldWithDefault entries "kind" .multiThread fun written =>
    written.alternative?.bind SchedulerKind.ofName?
  let workerThreads ← Toml.optionalField entries "worker_threads" Toml.natural?
  let maxBlockingThreads ← Toml.optionalField entries "max_blocking_threads" Toml.natural?
  let threadName ← Toml.fieldWithDefault entries "thread_name" Policy.usualThreadName Toml.text?
  return ⟨kind, workerThreads, maxBlockingThreads, threadName⟩

def ofRoot? (root : Toml) : Option SchedulerSettings := do
  let entries ← root.entries?
  Toml.fieldWithDefault entries "scheduler" {} ofToml?

def ofDocument? (document : String) : Option SchedulerSettings :=
  (Toml.ofText? document).bind ofRoot?

def kindVariable : String := "BVM_SCHEDULER"

def workerThreadsVariable : String := "BVM_WORKER_THREADS"

def overrideKind (settings : SchedulerSettings) (written : String) :
    Except Fault SchedulerSettings :=
  match SchedulerKind.read? written with
  | some kind => .ok { settings with kind := kind }
  | none => .error (.configuration ("unknown scheduler kind '" ++ written ++ "'"))

def overrideWorkerThreads (settings : SchedulerSettings) (written : String) :
    Except Fault SchedulerSettings :=
  match Decimal.readNatural (Nat.pow 2 64 - 1) (Text.trim written) with
  | .ok count => .ok { settings with workerThreads := some count }
  | .error cause => .error (.configuration (workerThreadsVariable ++ ": " ++ cause.message))

def applyOverride (settings : SchedulerSettings) (written : Option String)
    (override : SchedulerSettings → String → Except Fault SchedulerSettings) :
    Except Fault SchedulerSettings :=
  match written with
  | some written => override settings written
  | none => .ok settings

/-- Apply the overrides of an environment.  Those in front of a failing one stay applied. -/
def applyOverrides (settings : SchedulerSettings) (lookup : String → Option String) :
    SchedulerSettings × Except Fault Unit :=
  match settings.applyOverride (lookup kindVariable) overrideKind with
  | .error fault => (settings, .error fault)
  | .ok afterKind =>
    match afterKind.applyOverride (lookup workerThreadsVariable) overrideWorkerThreads with
    | .error fault => (afterKind, .error fault)
    | .ok afterThreads => (afterThreads, .ok ())

/-- The policy that settings ask for, whatever their numbers are. -/
def policy (settings : SchedulerSettings) : Policy :=
  let size := settings.maxBlockingThreads.getD Policy.usualPoolSize
  match settings.kind with
  | .multiThread => .threadPool true settings.threadName size
  | .currentThread => .threadPool false settings.threadName size
  | .threads => .ownThreads settings.threadName none none

/-- Build the scheduler that settings ask for.  No number of threads may be zero.  A multi-threaded
pool starts threads at once, so a name that is refused for them is found here. -/
def build (settings : SchedulerSettings) : Except Interruption Policy :=
  if settings.workerThreads = some 0 then
    .error (.fault (.configuration "worker_threads must be greater than zero"))
  else if settings.maxBlockingThreads = some 0 then
    .error (.fault (.configuration "max_blocking_threads must be greater than zero"))
  else match settings.kind, ThreadName.refusal? settings.threadName with
    | .multiThread, some refusal => .error (.panic refusal)
    | _, _ => .ok settings.policy

theorem eq_policy_of_build {settings : SchedulerSettings} {built : Policy}
    (isBuilt : settings.build = .ok built) : built = settings.policy := by
  simp only [build] at isBuilt
  split at isBuilt
  · cases isBuilt
  · split at isBuilt
    · cases isBuilt
    · split at isBuilt
      · cases isBuilt
      · injection isBuilt with same
        exact same.symm

end SchedulerSettings

/-! ## Tracing -/

def traceVariable : String := "BVM_TRACE"

private def oneOf (written : String) (words : List String) : Bool :=
  words.contains (Text.foldCase written)

/-- Whether a setting switches tracing on: anything but nothing, `0`, `false` and `off`. -/
def traceEnabled (written : String) : Bool :=
  let trimmed := Text.trim written
  !trimmed.isEmpty && !oneOf trimmed ["0", "false", "off"]

/-- The filter that a setting names: anything but nothing, `1`, `true` and `on`. -/
def traceFilter? (written : String) : Option String :=
  let trimmed := Text.trim written
  if trimmed.isEmpty || oneOf trimmed ["1", "true", "on"] then none else some trimmed

end WorkerMachine.Configuration
