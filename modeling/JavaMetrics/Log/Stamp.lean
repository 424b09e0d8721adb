/-!
# The time of an event

Seconds since the beginning of 1970 as a date and a time of day, in universal
time.
-/

namespace JavaMetrics.Log

/-- The year, month and day of a day that is counted from the beginning of 1970. Years are counted
from March here, so that a leap day is the last day of a year. -/
def civilDate (day : Int) : Int × Int × Int :=
  let shifted := day + 719468
  let era := Int.fdiv shifted 146097
  let dayOfEra := shifted - era * 146097
  let yearOfEra :=
    (dayOfEra - dayOfEra / 1460 + dayOfEra / 36524 - dayOfEra / 146096) / 365
  let dayOfYear := dayOfEra - (365 * yearOfEra + yearOfEra / 4 - yearOfEra / 100)
  let month := (5 * dayOfYear + 2) / 153
  let dayOfMonth := dayOfYear - (153 * month + 2) / 5 + 1
  let year := yearOfEra + era * 400
  if month < 10 then (year, month + 3, dayOfMonth) else (year + 1, month - 9, dayOfMonth)

/-- A number with at least two digits. -/
def twoDigits (n : Int) : String :=
  if n < 10 then s!"0{n}" else toString n

/-- The time in front of a line of the log file, with the blank after it. -/
def stamp (seconds : Int) : String :=
  let (year, month, day) := civilDate (Int.fdiv seconds 86400)
  let ofDay := Int.fmod seconds 86400
  s!"{year}-{twoDigits month}-{twoDigits day} " ++
    s!"{twoDigits (ofDay / 3600)}:{twoDigits (ofDay / 60 % 60)}:{twoDigits (ofDay % 60)} "

end JavaMetrics.Log
