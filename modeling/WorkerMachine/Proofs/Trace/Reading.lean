import WorkerMachine.Trace
/-!
# Reading traces

A full trace has a line for each message and a line for each frame.  The first line is a message; after
it, the line of a frame begins with a tab and the line of a cause with a word.  So the trace of an error
whose messages and frames are lines can be read, and what is read is the error.
-/

namespace WorkerMachine

/-! ## Legible errors -/

/-- A frame is written in one line, in which its parts can be told apart. -/
structure Frame.Legible (frame : Frame) : Prop where
  packageLine : '\n' ∉ frame.package.toList
  unitLine : '\n' ∉ frame.unit.toList
  workerLine : '\n' ∉ frame.worker.toList
  packageEnd : ':' ∉ frame.package.toList
  unitEnd : '(' ∉ frame.unit.toList

/-- The message and the frames of a level are written in one line each. -/
structure ErrorLevel.Legible (level : ErrorLevel) : Prop where
  message : '\n' ∉ level.message.toList
  frames : ∀ frame ∈ level.frames, frame.Legible

/-- All levels of an error, however long the chain of its causes is, are legible. -/
def ErrorValue.Legible (error : ErrorValue) : Prop :=
  ∀ level ∈ error.levels, level.Legible

/-! ## The lines of a trace -/

namespace TraceStyle

def frameWord : List Char := "\tat ".toList

def causeWord : List Char := "caused by: ".toList

def frameLine (frame : Frame) : List Char :=
  frameWord ++ frame.render.toList

/-- The lines of a level whose first line begins with a word. -/
def levelLines (word : List Char) (level : ErrorLevel) : List (List Char) :=
  (word ++ level.message.toList) :: level.frames.map frameLine

def laterLines (error : ErrorValue) : List (List Char) :=
  error.frames.map frameLine ++ error.causes.flatMap (levelLines causeWord)

theorem intercalate_cons {Element : Type} (separator first : List Element)
    (rest : List (List Element)) :
    separator.intercalate (first :: rest) = first ++ rest.flatMap (separator ++ ·) := by
  induction rest generalizing first with
  | nil => simp
  | cons second rest inductionHypothesis =>
    rw [List.intercalate_cons_cons, inductionHypothesis, List.flatMap_cons, List.append_assoc,
      List.append_assoc]

theorem toList_levelText (level : ErrorLevel) :
    (levelText level).toList =
      level.message.toList ++ level.frames.flatMap fun frame => '\n' :: frameLine frame := by
  unfold levelText
  rw [String.toList_append, String.toList_join, List.flatMap_map]
  simp only [String.toList_append]
  rfl

theorem toList_fullText (error : ErrorValue) :
    (fullText error).toList = ['\n'].intercalate (error.message.toList :: laterLines error) := by
  have causes : ∀ level : ErrorLevel, "\ncaused by: ".toList ++ (levelText level).toList =
      (levelLines causeWord level).flatMap ('\n' :: ·) := by
    intro level
    rw [toList_levelText, levelLines, List.flatMap_cons, List.flatMap_map]
    rfl
  unfold fullText ErrorValue.levels laterLines
  rw [String.toList_intercalate, List.map_cons, List.map_cons, intercalate_cons, intercalate_cons,
    toList_levelText, List.flatMap_append, List.flatMap_map, List.flatMap_map, List.flatMap_map,
    List.flatMap_assoc, List.append_assoc]
  simp only [causes]
  rfl

/-! ## Reading -/

def readFrame (written : List Char) : Frame :=
  let afterPackage := (written.dropWhile (· ≠ ':')).tail
  let afterUnit := (afterPackage.dropWhile (· ≠ '(')).tail
  { package := .ofList (written.takeWhile (· ≠ ':'))
    unit := .ofList (afterPackage.takeWhile (· ≠ '('))
    worker := .ofList afterUnit.dropLast }

/-- Read the lines that follow a message: its frames, and the levels of the causes. -/
def readLater : List (List Char) → List Frame × List ErrorLevel
  | [] => ([], [])
  | line :: rest =>
    let (frames, causes) := readLater rest
    if line.head? = some '\t' then (readFrame (line.drop frameWord.length) :: frames, causes)
    else ([], ⟨.ofList (line.drop causeWord.length), frames⟩ :: causes)

def readTrace (written : String) : ErrorValue :=
  let lines := written.toList.splitOn '\n'
  let (frames, causes) := readLater lines.tail
  ⟨⟨.ofList (lines.headD []), frames⟩, causes⟩

/-- Up to a mark that it does not have, and after the mark, a text is what has been put there. -/
theorem split_at_mark {mark : Char} {before : List Char} (unmarked : mark ∉ before)
    (after : List Char) :
    (before ++ mark :: after).takeWhile (· ≠ mark) = before ∧
      ((before ++ mark :: after).dropWhile (· ≠ mark)).tail = after := by
  have others : ∀ character ∈ before, decide (character ≠ mark) = true := by
    intro character member
    apply decide_eq_true
    rintro rfl
    exact unmarked member
  constructor
  · rw [List.takeWhile_append_of_pos others]
    simp
  · rw [List.dropWhile_append_of_pos others]
    simp

theorem readFrame_render {frame : Frame} (legible : frame.Legible) :
    readFrame frame.render.toList = frame := by
  have written : frame.render.toList =
      frame.package.toList ++ ':' :: (frame.unit.toList ++ '(' :: (frame.worker.toList ++ [')'])) := by
    simp [Frame.render]
  obtain ⟨package, afterPackage⟩ := split_at_mark legible.packageEnd
    (frame.unit.toList ++ '(' :: (frame.worker.toList ++ [')']))
  obtain ⟨unit, afterUnit⟩ := split_at_mark legible.unitEnd (frame.worker.toList ++ [')'])
  unfold readFrame
  dsimp only
  rw [written, package, afterPackage, unit, afterUnit, List.dropLast_concat, String.ofList_toList,
    String.ofList_toList, String.ofList_toList]

theorem readLater_frames {frames : List Frame} (legible : ∀ frame ∈ frames, frame.Legible)
    (lines : List (List Char)) :
    readLater (frames.map frameLine ++ lines) =
      (frames ++ (readLater lines).1, (readLater lines).2) := by
  induction frames with
  | nil => rfl
  | cons frame rest inductionHypothesis =>
    have isFrame : (frameLine frame).drop frameWord.length = frame.render.toList :=
      List.drop_left
    have begins : (frameLine frame).head? = some '\t' := rfl
    rw [List.map_cons, List.cons_append, readLater,
      inductionHypothesis fun other member => legible other (List.mem_cons_of_mem _ member)]
    dsimp only
    rw [if_pos begins, isFrame, readFrame_render (legible frame List.mem_cons_self)]
    rfl

theorem readLater_causes {causes : List ErrorLevel} (legible : ∀ level ∈ causes, level.Legible) :
    readLater (causes.flatMap (levelLines causeWord)) = ([], causes) := by
  induction causes with
  | nil => rfl
  | cons cause rest inductionHypothesis =>
    have isMessage : (causeWord ++ cause.message.toList).drop causeWord.length =
        cause.message.toList :=
      List.drop_left
    have begins : (causeWord ++ cause.message.toList).head? ≠ some '\t' := by
      change some 'c' ≠ some '\t'
      decide
    rw [List.flatMap_cons, levelLines, List.cons_append, readLater,
      readLater_frames (legible cause List.mem_cons_self).frames,
      inductionHypothesis fun other member => legible other (List.mem_cons_of_mem _ member)]
    dsimp only
    rw [if_neg begins, isMessage, String.ofList_toList, List.append_nil]

theorem newline_notMem_frameLine {frame : Frame} (legible : frame.Legible) :
    '\n' ∉ frameLine frame := by
  simp [frameLine, frameWord, Frame.render, legible.packageLine, legible.unitLine,
    legible.workerLine]

theorem newline_notMem_lines {error : ErrorValue} (legible : error.Legible) :
    ∀ line ∈ error.message.toList :: laterLines error, '\n' ∉ line := by
  have ofFrames : ∀ level ∈ error.levels, ∀ line ∈ level.frames.map frameLine, '\n' ∉ line := by
    intro level isLevel line member
    obtain ⟨frame, isFrame, rfl⟩ := List.mem_map.mp member
    exact newline_notMem_frameLine ((legible level isLevel).frames frame isFrame)
  intro line member
  rcases List.mem_cons.mp member with rfl | member
  · exact (legible _ List.mem_cons_self).message
  · rcases List.mem_append.mp member with isFrame | isCause
    · exact ofFrames _ List.mem_cons_self line isFrame
    · obtain ⟨cause, isCause, member⟩ := List.mem_flatMap.mp isCause
      have isLevel : cause ∈ error.levels := List.mem_cons_of_mem _ isCause
      rcases List.mem_cons.mp member with rfl | isFrame
      · intro member
        rcases List.mem_append.mp member with inWord | inMessage
        · exact absurd inWord (by decide)
        · exact (legible cause isLevel).message inMessage
      · exact ofFrames cause isLevel line isFrame

theorem readTrace_fullText {error : ErrorValue} (legible : error.Legible) :
    readTrace (fullText error) = error := by
  have causes : ∀ cause ∈ error.causes, cause.Legible :=
    fun cause member => legible cause (List.mem_cons_of_mem _ member)
  unfold readTrace
  dsimp only
  rw [toList_fullText, List.splitOn_intercalate '\n' (newline_notMem_lines legible) (by simp),
    List.tail_cons, List.headD_cons, laterLines,
    readLater_frames (legible _ List.mem_cons_self).frames, readLater_causes causes,
    String.ofList_toList]
  dsimp only
  rw [List.append_nil]

/-- The full trace loses nothing: legible errors with the same trace are the same, in the messages and
the frames of all levels and in the length of the chain of causes. -/
theorem full_render_eq_iff {first second : ErrorValue} (firstLegible : first.Legible)
    (secondLegible : second.Legible) :
    TraceStyle.full.render first = TraceStyle.full.render second ↔ first = second := by
  constructor
  · intro sameTrace
    calc first = readTrace (fullText first) := (readTrace_fullText firstLegible).symm
      _ = readTrace (fullText second) := congrArg readTrace sameTrace
      _ = second := readTrace_fullText secondLegible
  · intro same
    rw [same]

end TraceStyle

/-- An error without a message, raised in a worker with parentheses in its name. -/
def ErrorValue.inWorker : ErrorValue :=
  ⟨⟨"", [⟨"lib", "<init>", "first (of 2)"⟩]⟩, []⟩

/-- An error without a message, with a cause whose message looks like the line of a frame. -/
def ErrorValue.withLookalike : ErrorValue :=
  ⟨⟨"", []⟩, [⟨"\tat lib:<init>(first (of 2))", []⟩]⟩

/-- A frame is not mistaken for the message of a cause that looks like it. -/
theorem TraceStyle.full_render_ne_of_lookalike :
    ErrorValue.inWorker.Legible ∧ ErrorValue.withLookalike.Legible ∧
      TraceStyle.full.render .inWorker ≠ TraceStyle.full.render .withLookalike := by
  have inWorker : ErrorValue.inWorker.Legible := by
    intro level member
    obtain rfl := List.mem_singleton.mp member
    refine ⟨by decide, fun frame isFrame => ?_⟩
    obtain rfl := List.mem_singleton.mp isFrame
    exact ⟨by decide, by decide, by decide, by decide, by decide⟩
  have withLookalike : ErrorValue.withLookalike.Legible := by
    intro level member
    rcases List.mem_cons.mp member with rfl | member
    · exact ⟨by decide, fun frame isFrame => nomatch isFrame⟩
    · obtain rfl := List.mem_singleton.mp member
      exact ⟨by decide, fun frame isFrame => nomatch isFrame⟩
  refine ⟨inWorker, withLookalike, fun sameTrace => ?_⟩
  exact absurd ((TraceStyle.full_render_eq_iff inWorker withLookalike).mp sameTrace) (by decide)

end WorkerMachine
