import WorkerMachine.Decimal.Reading
import WorkerMachine.Toml.Reader
/-!
# Dates and times

A moment is a date, a time of day, or both with a mark between them; where both are given, the
distance from universal time may follow.  The seconds of a time may be missing.
-/

namespace WorkerMachine.Toml

def readDecimal (count : Nat) : Reader Nat := readFixed Decimal.digitValue? 10 count 0

def skipMark (mark : Char) : Skipper
  | character :: rest => if character = mark then some rest else none
  | [] => none

def isLeapYear (year : Nat) : Bool :=
  year % 4 = 0 && (year % 100 ≠ 0 || year % 400 = 0)

def daysOfMonth (year month : Nat) : Nat :=
  if month = 2 then if isLeapYear year then 29 else 28
  else if month = 4 || month = 6 || month = 9 || month = 11 then 30
  else 31

def skipDate : Skipper := fun characters => do
  let (year, afterYear) ← readDecimal 4 characters
  let (month, afterMonth) ← readDecimal 2 (← skipMark '-' afterYear)
  let (day, afterDay) ← readDecimal 2 (← skipMark '-' afterMonth)
  if 1 ≤ month && month ≤ 12 && 1 ≤ day && day ≤ daysOfMonth year month then some afterDay
  else none

def skipHourAndMinute : Skipper := fun characters => do
  let (hour, afterHour) ← readDecimal 2 characters
  let (minute, afterMinute) ← readDecimal 2 (← skipMark ':' afterHour)
  if hour < 24 && minute < 60 then some afterMinute else none

/-- Drop the part of a second, if there is one: a point and at least one digit. -/
def skipFraction : Skipper
  | '.' :: rest =>
    match rest.takeWhile Char.isDigit with
    | [] => none
    | _ => some (rest.dropWhile Char.isDigit)
  | characters => some characters

/-- Drop a time of day.  A leap second is admitted. -/
def skipTime : Skipper := fun characters => do
  match ← skipHourAndMinute characters with
  | ':' :: rest =>
    let (second, afterSecond) ← readDecimal 2 rest
    if second ≤ 60 then skipFraction afterSecond else none
  | rest => some rest

def skipOffset : Skipper
  | 'Z' :: rest | 'z' :: rest => some rest
  | '+' :: rest | '-' :: rest => skipHourAndMinute rest
  | characters => some characters

def isTimeMark (character : Char) : Bool :=
  character = 'T' || character = 't' || character = ' '

def isDate (word : List Char) : Bool :=
  skipDate word = some []

def isTime (word : List Char) : Bool :=
  skipTime word = some []

def isDateAndTime (word : List Char) : Bool :=
  match skipDate word with
  | some (mark :: rest) => isTimeMark mark && (skipTime rest).bind skipOffset = some []
  | _ => false

def isMoment (word : List Char) : Bool :=
  isDate word || isTime word || isDateAndTime word

end WorkerMachine.Toml
