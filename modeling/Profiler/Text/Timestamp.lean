/-
# Dates and times in words

A moment is shown by its date, its time of day and how far the clock is ahead
of universal time, as RFC 3339 has it. Moments are counted in seconds from the
beginning of 1970.

Key definitions: `Timestamp.date`, `Timestamp.text`.
-/
namespace Profiler
namespace Timestamp

def isLeap (year : Nat) : Bool := year % 4 == 0 && (year % 100 != 0 || year % 400 == 0)

def yearDays (year : Nat) : Nat := if isLeap year then 366 else 365

def monthDays (year : Nat) : List Nat :=
  [31, if isLeap year then 29 else 28, 31, 30, 31, 30, 31, 31, 30, 31, 30, 31]

/-- The year, and the day of the year from 0, of a day counted from the first
day of `year`. -/
def yearOf (year day : Nat) : Nat × Nat :=
  if _h : day < yearDays year then (year, day) else yearOf (year + 1) (day - yearDays year)
termination_by day
decreasing_by
  have : 0 < yearDays year := by simp only [yearDays]; split <;> decide
  omega

/-- The month from 1 and the day from 1 of a day from 0, where months are so
long. -/
def monthOf (month : Nat) : List Nat → Nat → Nat × Nat
  | [], day => (month, day + 1)
  | days :: rest, day =>
    if day < days then (month, day + 1) else monthOf (month + 1) rest (day - days)

def date (day : Nat) : Nat × Nat × Nat :=
  let (year, day) := yearOf 1970 day
  (year, monthOf 1 (monthDays year) day)

/-- A number in at least so many digits. -/
def padded (width n : Nat) : String :=
  let digits := Nat.toDigits 10 n
  String.ofList (List.replicate (width - digits.length) '0' ++ digits)

def text (seconds : Nat) : String :=
  let (year, month, day) := date (seconds / 86400)
  let rest := seconds % 86400
  padded 4 year ++ "-" ++ padded 2 month ++ "-" ++ padded 2 day ++ "T" ++ padded 2 (rest / 3600) ++
    ":" ++ padded 2 (rest / 60 % 60) ++ ":" ++ padded 2 (rest % 60) ++ "+00:00"

end Timestamp
end Profiler
