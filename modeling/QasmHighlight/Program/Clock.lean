/-!
# Times

A moment is counted in milliseconds from the beginning of 1970.  A log line
shows it as a date and a time of day, and the name of a session log begins with it.
-/

namespace QasmHighlight
namespace Program

/-- Milliseconds since the beginning of 1970. -/
structure Moment where
  milliseconds : Nat

structure Date where
  year : Nat
  month : Nat
  day : Nat
  deriving DecidableEq

/-- The day that comes `days` days after the first of January 1970.  Years are
taken to begin in March, so that a leap day is the last of its year, and to
come in cycles of four hundred. -/
def Date.ofDays (days : Nat) : Date :=
  let sinceCycles := days + 719468
  let cycle := sinceCycles / 146097
  let dayOfCycle := sinceCycles % 146097
  let withoutLeapDays := dayOfCycle - dayOfCycle / 1460 + dayOfCycle / 36524 - dayOfCycle / 146096
  let yearOfCycle := withoutLeapDays / 365
  let dayOfYear := dayOfCycle - (365 * yearOfCycle + yearOfCycle / 4 - yearOfCycle / 100)
  let monthFromMarch := (5 * dayOfYear + 2) / 153
  let day := dayOfYear - (153 * monthFromMarch + 2) / 5 + 1
  let month := if monthFromMarch < 10 then monthFromMarch + 3 else monthFromMarch - 9
  let year := yearOfCycle + cycle * 400
  ⟨if month ≤ 2 then year + 1 else year, month, day⟩

/-- A number with zeros before it up to a width. -/
def padded (width n : Nat) : String :=
  let digits := toString n
  String.ofList (List.replicate (width - digits.length) '0') ++ digits

namespace Moment

def date (moment : Moment) : Date :=
  .ofDays (moment.milliseconds / 86400000)

def hour (moment : Moment) : Nat := moment.milliseconds / 3600000 % 24

def minute (moment : Moment) : Nat := moment.milliseconds / 60000 % 60

def second (moment : Moment) : Nat := moment.milliseconds / 1000 % 60

/-- A moment in a log line. -/
def stamp (moment : Moment) : String :=
  "[" ++ padded 4 moment.date.year ++ "-" ++ padded 2 moment.date.month ++ "-" ++
    padded 2 moment.date.day ++ "T" ++ padded 2 moment.hour ++ ":" ++ padded 2 moment.minute ++
    ":" ++ padded 2 moment.second ++ "." ++ padded 3 (moment.milliseconds % 1000) ++ "Z]"

/-- A moment in the name of a session log. -/
def compact (moment : Moment) : String :=
  padded 4 moment.date.year ++ padded 2 moment.date.month ++ padded 2 moment.date.day ++ "-" ++
    padded 2 moment.hour ++ padded 2 moment.minute ++ padded 2 moment.second

end Moment
end Program
end QasmHighlight
