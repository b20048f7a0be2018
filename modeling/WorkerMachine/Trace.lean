import WorkerMachine.Value.ErrorValue
/-!
# Written stack traces

A failed initialization keeps only the written trace of its error.
-/

namespace WorkerMachine

inductive TraceStyle where
  /-- One line for the message of each level and one for each of its frames. -/
  | full
  /-- The message, the number of frames, and whether there is a cause. -/
  | short
  deriving DecidableEq, Repr, Inhabited

namespace TraceStyle

def levelText (level : ErrorLevel) : String :=
  level.message ++ String.join (level.frames.map fun frame => "\n\tat " ++ frame.render)

/-- The full trace: each cause is introduced on a line of its own. -/
def fullText (error : ErrorValue) : String :=
  "\ncaused by: ".intercalate (error.levels.map levelText)

def shortText (error : ErrorValue) : String :=
  "<" ++ error.message ++ "|" ++ toString error.frames.length ++ "|"
    ++ (if error.causes.isEmpty then "false" else "true") ++ ">"

def render : TraceStyle → ErrorValue → String
  | full => fullText
  | short => shortText

end TraceStyle

end WorkerMachine
