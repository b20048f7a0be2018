import WorkerMachine.Fault
import WorkerMachine.Table
/-!
# The arena of contexts

The arena keeps a record of every live context: its parent and its state.  Names are given out in
increasing order and never twice, so a parent is always older than its children and every line of
ancestors ends.
-/

namespace WorkerMachine

structure ContextRecord where
  parent : Option ContextId
  state : ContextState
  label : String
  deriving DecidableEq, Repr, Inhabited

/-- The records of the live contexts and the name of the next one. -/
structure Arena where
  records : Table ContextId ContextRecord := .empty
  nextId : ContextId := 1
  deriving DecidableEq, Repr, Inhabited

namespace Arena

/-- The label of contexts that run no worker. -/
def rootLabel : String := "<root>"

def register (arena : Arena) (record : ContextRecord) : ContextId × Arena :=
  (arena.nextId, ⟨arena.records.insert arena.nextId record, arena.nextId + 1⟩)

/-- The record of a live context. -/
def record? (arena : Arena) (id : ContextId) : Option ContextRecord :=
  arena.records.get? id

/-- The state of a live context. -/
def state? (arena : Arena) (id : ContextId) : Option ContextState :=
  (arena.record? id).map ContextRecord.state

/-- The parent of a live context. -/
def parent? (arena : Arena) (id : ContextId) : Option ContextId :=
  (arena.record? id).bind ContextRecord.parent

/-- The live contexts from `id` outwards, `id` first, and at most `bound` of them. -/
def lineage (arena : Arena) : Nat → ContextId → List ContextId
  | 0, _ => []
  | bound + 1, id =>
    match arena.record? id with
    | none => []
    | some record =>
      match record.parent with
      | none => [id]
      | some parent => id :: arena.lineage bound parent

/-- The live contexts from `id` outwards, `id` first, up to one without a live parent.  Each is
older than the one before, so there are at most `id + 1` of them. -/
def ancestry (arena : Arena) (id : ContextId) : List ContextId :=
  arena.lineage (id + 1) id

/-- Move a live context to another state, and tell the state it was in. -/
def transition (arena : Arena) (id : ContextId) (next : ContextState) :
    Except Fault ContextState × Arena :=
  match arena.record? id with
  | none => (.error (.invalidTransition id none next), arena)
  | some record =>
    if record.state.canMoveTo next then
      (.ok record.state,
        { arena with records := arena.records.insert id { record with state := next } })
    else (.error (.invalidTransition id (some record.state) next), arena)

/-- Mark a context as waiting for a response; one that already waits stays as it is. -/
def beginWait (arena : Arena) (id : ContextId) : Except Fault Unit × Arena :=
  if arena.state? id = some .waiting then (.ok (), arena)
  else
    let (moved, after) := arena.transition id .waiting
    (moved.map fun _ => (), after)

/-- Mark the parent of an invocation as waiting while the invocation is joined.  A parent that has
been released has nothing to mark, and one that already waits stays as it is. -/
def suspend (arena : Arena) (id : ContextId) : Except Fault Unit × Arena :=
  match arena.state? id with
  | none | some .waiting => (.ok (), arena)
  | some _ => arena.beginWait id

def resume (arena : Arena) (id : ContextId) : Arena :=
  if arena.state? id = some .waiting then (arena.transition id .running).2 else arena

/-- End a context: one that is still waiting runs again first, and then it takes its last state. -/
def finish (arena : Arena) (id : ContextId) (last : ContextState) : Arena :=
  ((arena.resume id).transition id last).2

def release (arena : Arena) (id : ContextId) : Arena :=
  { arena with records := arena.records.erase id }

def size (arena : Arena) : Nat :=
  arena.records.size

/-! ## What one operation does to the records -/

/-- A new context has the record it was registered with, and other records stay. -/
theorem record?_register (arena : Arena) (record : ContextRecord) (asked : ContextId) :
    (arena.register record).2.record? asked =
      if arena.nextId = asked then some record else arena.record? asked :=
  Table.get?_insert arena.records arena.nextId asked record

theorem record?_release (arena : Arena) (id asked : ContextId) :
    (arena.release id).record? asked = if id = asked then none else arena.record? asked :=
  Table.get?_erase arena.records id asked

/-- A refused move changes nothing. -/
theorem transition_error {arena after : Arena} {id : ContextId} {next : ContextState}
    {fault : Fault} (refused : arena.transition id next = (.error fault, after)) :
    after = arena := by
  unfold transition at refused
  split at refused
  · exact ((Prod.mk.injEq ..).mp refused).2.symm
  · split at refused
    · simp at refused
    · exact ((Prod.mk.injEq ..).mp refused).2.symm

end Arena

end WorkerMachine
