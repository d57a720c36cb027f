/-!
# Points in time as text

A point in time is a number of nanoseconds since the start of the year 1970. Its text is the date
and the time of day in UTC, with as many groups of three decimals as the fraction of the second
needs.
-/

namespace Rulebook.Calendar

/-- The year, month and day that lie a number of days after the first day of 1970. The count is
turned into one from the first of March of the year 0, in eras of 400 years. -/
def dateOfDays (days : Nat) : Nat × Nat × Nat :=
  let shifted := days + 719468
  let era := shifted / 146097
  let dayOfEra := shifted % 146097
  let yearOfEra := (dayOfEra - dayOfEra / 1460 + dayOfEra / 36524 - dayOfEra / 146096) / 365
  let dayOfYear := dayOfEra - (365 * yearOfEra + yearOfEra / 4 - yearOfEra / 100)
  let month := (5 * dayOfYear + 2) / 153
  let day := dayOfYear - (153 * month + 2) / 5 + 1
  let month := if month < 10 then month + 3 else month - 9
  let year := yearOfEra + 400 * era + (if month ≤ 2 then 1 else 0)
  (year, month, day)

/-- The decimal digits of a number, with zeros in front up to a width. -/
def padded (width n : Nat) : String :=
  let digits := Nat.toDigits 10 n
  String.ofList (List.replicate (width - digits.length) '0' ++ digits)

/-- The fraction of a second, given in nanoseconds. -/
def fraction (nanos : Nat) : String :=
  if nanos = 0 then ""
  else if nanos % 1000000 = 0 then "." ++ padded 3 (nanos / 1000000)
  else if nanos % 1000 = 0 then "." ++ padded 6 (nanos / 1000)
  else "." ++ padded 9 nanos

/-- The date and the time of day without the fraction of the second. -/
def dateAndTime (time : Nat) : String :=
  let seconds := time / 1000000000
  let (year, month, day) := dateOfDays (seconds / 86400)
  let ofDay := seconds % 86400
  padded 4 year ++ "-" ++ padded 2 month ++ "-" ++ padded 2 day ++ "T" ++
    padded 2 (ofDay / 3600) ++ ":" ++ padded 2 (ofDay / 60 % 60) ++ ":" ++ padded 2 (ofDay % 60)

/-- The text of a point in time. -/
def text (time : Nat) : String :=
  dateAndTime time ++ fraction (time % 1000000000) ++ "+00:00"

/-- The text of a point in time, cut to the second. -/
def secondText (time : Nat) : String := dateAndTime time ++ "Z"

end Rulebook.Calendar
