/-!
# Errors as values

An error raised by a worker carries a message, the frames of the invocations that it has crossed,
innermost first, and a chain of causes with messages and frames of their own.
-/

namespace WorkerMachine

/-- One entry of an error's call trail. -/
structure Frame where
  package : String
  unit : String
  worker : String
  deriving DecidableEq, Repr, Inhabited

/-- The written form of a frame: `package:unit(worker)`. -/
def Frame.render (frame : Frame) : String :=
  frame.package ++ ":" ++ frame.unit ++ "(" ++ frame.worker ++ ")"

/-- The message and the call trail of one error in a chain of causes. -/
structure ErrorLevel where
  message : String
  frames : List Frame
  deriving DecidableEq, Repr, Inhabited

/-- An error with the levels of its causes, the direct cause first. -/
structure ErrorValue extends ErrorLevel where
  causes : List ErrorLevel
  deriving DecidableEq, Repr, Inhabited

namespace ErrorValue

def ofMessage (message : String) : ErrorValue := ⟨⟨message, []⟩, []⟩

/-- Give an error a cause, replacing the causes it had. -/
def withCause (error cause : ErrorValue) : ErrorValue :=
  { error with causes := cause.toErrorLevel :: cause.causes }

/-- Add a frame at the outer end of the trail. -/
def pushFrame (error : ErrorValue) (frame : Frame) : ErrorValue :=
  { error with frames := error.frames ++ [frame] }

/-- The direct cause, which carries the remaining causes. -/
def cause? (error : ErrorValue) : Option ErrorValue :=
  match error.causes with
  | [] => none
  | direct :: others => some ⟨direct, others⟩

/-- The error itself and all its causes, outermost first. -/
def levels (error : ErrorValue) : List ErrorLevel :=
  error.toErrorLevel :: error.causes

@[simp] theorem cause?_withCause (error cause : ErrorValue) :
    (error.withCause cause).cause? = some cause := rfl

end ErrorValue

end WorkerMachine
