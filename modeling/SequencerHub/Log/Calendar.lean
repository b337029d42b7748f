/-! The time of day and the date, as they stand in log files. -/
namespace SequencerHub.Calendar

/-- Year, month and day of the day with the given number; day 0 is the first of January 1970. Years are
counted from March on, so that the leap day is the last of its year. -/
def date (day : Nat) : Nat × Nat × Nat :=
  let z := day + 719468
  let era := z / 146097
  let dayOfEra := z % 146097
  let yearOfEra := (dayOfEra - dayOfEra / 1460 + dayOfEra / 36524 - dayOfEra / 146096) / 365
  let dayOfYear := dayOfEra - (365 * yearOfEra + yearOfEra / 4 - yearOfEra / 100)
  let fifth := (5 * dayOfYear + 2) / 153
  let day := dayOfYear - (153 * fifth + 2) / 5 + 1
  let month := if fifth < 10 then fifth + 3 else fifth - 9
  (yearOfEra + 400 * era + (if month ≤ 2 then 1 else 0), month, day)

def padded (width n : Nat) : String :=
  let digits := toString n
  String.ofList (List.replicate (width - digits.length) '0') ++ digits

def text (seconds nanoseconds : Nat) : String :=
  let (year, month, day) := date (seconds / 86400)
  let second := seconds % 86400
  s!"{padded 4 year}-{padded 2 month}-{padded 2 day}T{padded 2 (second / 3600)}:" ++
    s!"{padded 2 (second / 60 % 60)}:{padded 2 (second % 60)}.{padded 9 nanoseconds}Z"

def stamp (seconds : Nat) : String :=
  let (year, month, day) := date (seconds / 86400)
  let second := seconds % 86400
  s!"{padded 4 year}{padded 2 month}{padded 2 day}T{padded 2 (second / 3600)}" ++
    s!"{padded 2 (second / 60 % 60)}{padded 2 (second % 60)}"

end SequencerHub.Calendar
