import PinMachine.Journal.Filter

/-!
Written journal entries: an optional time, the level, the name of the part that
speaks, and the message, on one line.
-/

namespace PinMachine

/-- A number with zeros on its left up to a width. -/
def padded (width number : Nat) : String :=
  let digits := toString number
  String.ofList (List.replicate (width - digits.length) '0') ++ digits

structure Date where
  year : Nat
  month : Nat
  day : Nat
  deriving DecidableEq, Repr

/-- The date of a day counted from the first of January 1970. Years are taken to
start in March, so that a leap day ends its year; 400 years have 146097 days. -/
def Date.ofDays (days : Nat) : Date :=
  let shifted := days + 719468
  let era := shifted / 146097
  let dayOfEra := shifted % 146097
  let yearOfEra :=
    (dayOfEra - dayOfEra / 1460 + dayOfEra / 36524 - dayOfEra / 146096) / 365
  let dayOfYear := dayOfEra - (365 * yearOfEra + yearOfEra / 4 - yearOfEra / 100)
  let marchMonth := (5 * dayOfYear + 2) / 153
  let month := if marchMonth < 10 then marchMonth + 3 else marchMonth - 9
  let year := yearOfEra + era * 400
  { year := if month ≤ 2 then year + 1 else year
    month := month
    day := dayOfYear - (153 * marchMonth + 2) / 5 + 1 }

/-- Date and time of day of a moment in milliseconds since 1970. -/
def timestamp (milliseconds : Nat) : String :=
  let seconds := milliseconds / 1000
  let date := Date.ofDays (seconds / 86400)
  padded 4 date.year ++ "-" ++ padded 2 date.month ++ "-" ++ padded 2 date.day ++
    " " ++ padded 2 (seconds / 3600 % 24) ++ ":" ++ padded 2 (seconds / 60 % 60) ++
    ":" ++ padded 2 (seconds % 60) ++ "." ++ padded 3 (milliseconds % 1000)

/-- What is written of an entry. -/
structure JournalFormat where
  /-- The moment of writing, in milliseconds, if it is shown. -/
  time : Option Nat := none
  showLevel : Bool := true
  showTarget : Bool := false
  color : Bool := false

/-- The terminal sequence before an entry of a level. -/
def Level.colorSequence : Level → String
  | .debug => "\x1b[36m"
  | .info => ""
  | .warn => "\x1b[1m\x1b[33m"
  | .error => "\x1b[1m\x1b[31m"

def colorReset : String := "\x1b[0m"

namespace JournalFormat

def line (format : JournalFormat) (level : Level) (target message : String) :
    String :=
  (format.time.map fun moment => timestamp moment ++ " ").getD "" ++
    (if format.showLevel then "[" ++ level.name ++ "] " else "") ++
    (if format.showTarget then target ++ ": " else "") ++ message

/-- What is written for an entry: nothing if the filter holds it back. -/
def write (format : JournalFormat) (filter : Option Level) (level : Level)
    (target message : String) : String :=
  if level.isEnabled filter then
    let text := format.line level target message ++ "\n"
    if format.color then
      colorReset ++ level.colorSequence ++ text ++ colorReset
    else text
  else ""

end JournalFormat

end PinMachine
