/-!
# Timestamps

Moments as dates and times of day, in universal time.
-/

namespace ContextPack.Timestamp

def secondsPerDay : Nat := 86400

/-- Days in a cycle of four hundred years. -/
def cycleDays : Nat := 146097

/-- Days from the first of March of the year zero to the first of January 1970. -/
def epochDays : Nat := 719468

structure Date where
  year : Nat
  month : Nat
  day : Nat
deriving DecidableEq

/-- The date so many days after the first of January 1970.  Years are counted
from March here, so that a leap day comes last. -/
def Date.ofDays (days : Nat) : Date :=
  let shifted := days + epochDays
  let day := shifted % cycleDays
  let year := (day - day / 1460 + day / 36524 - day / 146096) / 365
  let dayOfYear := day - (365 * year + year / 4 - year / 100)
  let month := (5 * dayOfYear + 2) / 153
  let inNextYear := 10 ≤ month
  { year := year + 400 * (shifted / cycleDays) + if inNextYear then 1 else 0
    month := if inNextYear then month - 9 else month + 3
    day := dayOfYear - (153 * month + 2) / 5 + 1 }

/-- A number in at least so many digits. -/
def padded (width number : Nat) : String :=
  let digits := Nat.toDigits 10 number
  String.ofList (List.replicate (width - digits.length) '0' ++ digits)

/-- The text of a moment, given in seconds since the first of January 1970. -/
def text (seconds : Nat) : String :=
  let date := Date.ofDays (seconds / secondsPerDay)
  let time := seconds % secondsPerDay
  padded 4 date.year ++ "-" ++ padded 2 date.month ++ "-" ++ padded 2 date.day ++ "T" ++
    padded 2 (time / 3600) ++ ":" ++ padded 2 (time / 60 % 60) ++ ":" ++ padded 2 (time % 60) ++
    "+00:00"

end ContextPack.Timestamp
