import Wiretap.Digits
import Wiretap.Log
import Wiretap.Timestamp

/-! Dates of the calendar and the times that stand before lines of the log. The count of days is broken
up into cycles of four hundred years, which all have the same number of days. Within a cycle the year
begins in March, so that a leap day is the last day of its year. -/

namespace Wiretap

structure Date where
  year : Nat
  month : Nat
  day : Nat
deriving DecidableEq, Repr

namespace Date

/-- Days in four hundred years. -/
def cycleLength : Nat := 146097

/-- The date so many days after the first of January 1970. -/
def ofDay (days : Nat) : Date :=
  let fromMarch := days + 719468
  let dayOfCycle := fromMarch % cycleLength
  let yearOfCycle :=
    (dayOfCycle - dayOfCycle / 1460 + dayOfCycle / 36524 - dayOfCycle / 146096) / 365
  let dayOfYear := dayOfCycle - (365 * yearOfCycle + yearOfCycle / 4 - yearOfCycle / 100)
  let monthFromMarch := (5 * dayOfYear + 2) / 153
  let month := if monthFromMarch < 10 then monthFromMarch + 3 else monthFromMarch - 9
  { year := fromMarch / cycleLength * 400 + yearOfCycle + (if month ≤ 2 then 1 else 0)
    month
    day := dayOfYear - (153 * monthFromMarch + 2) / 5 + 1 }

def text (d : Date) : String :=
  padded 4 (decimal d.year) ++ "-" ++ padded 2 (decimal d.month) ++ "-" ++ padded 2 (decimal d.day)

end Date

namespace Timestamp

/-- Date and time of day to the second, in universal time. -/
def text (t : Timestamp) : String :=
  let seconds := t.seconds.toNat
  let two (n : Nat) := padded 2 (decimal n)
  (Date.ofDay (seconds / 86400)).text ++ "T" ++ two (seconds / 3600 % 24) ++ ":" ++
    two (seconds / 60 % 60) ++ ":" ++ two (seconds % 60) ++ "Z"

end Timestamp

namespace LogLine

/-- The line with the time before it. -/
def text (now : Timestamp) (l : LogLine) : String :=
  let blanks := String.ofList (List.replicate (5 - l.level.name.length) ' ')
  "[" ++ now.text ++ " " ++ l.level.name ++ blanks ++ "] " ++ l.message

end LogLine

end Wiretap
