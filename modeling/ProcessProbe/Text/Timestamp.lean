import ProcessProbe.Text.Duration

/-!
# Timestamps

A time in Universal Time as a text, such as `2024-02-29T12:00:00.5+00:00`.
-/

namespace ProcessProbe.Text

/-- Year, month and day of a day that is counted from the first of March of the year 0. Months are counted from March,
so that the day that is added in a leap year is the last one of its year. -/
def dateOfDay (day : Nat) : Nat × Nat × Nat :=
  let era := day / 146097
  let inEra := day % 146097
  let year := (inEra - inEra / 1460 + inEra / 36524 - inEra / 146096) / 365
  let inYear := inEra - (365 * year + year / 4 - year / 100)
  let month := (5 * inYear + 2) / 153
  let date := inYear - (153 * month + 2) / 5 + 1
  if month < 10 then (year + era * 400, month + 3, date) else (year + era * 400 + 1, month - 9, date)

def padded (width n : Nat) : String :=
  let digits := Nat.toDigits 10 n
  String.ofList (List.replicate (width - digits.length) '0' ++ digits)

/-- The time so many seconds and nanoseconds after the start of 1970. -/
def timestamp (seconds nanoseconds : Nat) : String :=
  let (year, month, date) := dateOfDay (seconds / 86400 + 719468)
  let time := seconds % 86400
  let fraction := String.ofList (Duration.decimals 9 nanoseconds)
  let zone := "+00:00"
  s!"{padded 4 year}-{padded 2 month}-{padded 2 date}T" ++
    s!"{padded 2 (time / 3600)}:{padded 2 (time / 60 % 60)}:{padded 2 (time % 60)}{fraction}{zone}"

/-- A leap day, and the last day of a century without one. -/
example : timestamp 1709208000 500000000 = "2024-02-29T12:00:00.5+00:00" := by decide +kernel

example : timestamp 4107542399 0 = "2100-02-28T23:59:59+00:00" := by decide +kernel

end ProcessProbe.Text
