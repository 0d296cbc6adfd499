/-!
# Dates and times

The Gregorian calendar, continued before its introduction and without end. A year
from 0 to 9999 has four digits; any other has a sign as well.
-/

namespace DocTable
set_option autoImplicit false

structure Date where
  year : Int
  month : Nat
  day : Nat
  deriving DecidableEq, Repr

structure TimeOfDay where
  hour : Nat
  minute : Nat
  second : Nat
  /-- A million and more stands for the leap second after the second. -/
  micros : Nat
  deriving DecidableEq, Repr

namespace Calendar

def isLeap (year : Int) : Bool :=
  year % 4 == 0 && (year % 100 != 0 || year % 400 == 0)

def daysInMonth (year : Int) (month : Nat) : Nat :=
  match month with
  | 1 | 3 | 5 | 7 | 8 | 10 | 12 => 31
  | 4 | 6 | 9 | 11 => 30
  | 2 => if isLeap year then 29 else 28
  | _ => 0

/-- A number with at least so many digits. -/
def padded (digits n : Nat) : String :=
  let s := toString n
  String.ofList (List.replicate (digits - s.length) '0') ++ s

def yearText (year : Int) : String :=
  if 0 ≤ year ∧ year ≤ 9999 then padded 4 year.toNat
  else (if year < 0 then "-" else "+") ++ padded 4 year.natAbs

end Calendar

namespace Date
open Calendar

def isValid (d : Date) : Bool :=
  1 ≤ d.month && d.month ≤ 12 && 1 ≤ d.day && d.day ≤ daysInMonth d.year d.month

/-- The days from the first of March of year 0 to the first of January of 2000. -/
def epochShift : Int := 730425

/-- The date so many days after 2000-01-01. Years are counted from March, so that a leap day
is the last of its year. -/
def ofDays (days : Int) : Date :=
  let shifted := days + epochShift
  let era := shifted / 146097
  let dayOfEra := (shifted % 146097).toNat
  let yearOfEra :=
    (dayOfEra - dayOfEra / 1460 + dayOfEra / 36524 - dayOfEra / 146096) / 365
  let dayOfYear := dayOfEra - (365 * yearOfEra + yearOfEra / 4 - yearOfEra / 100)
  let marchMonth := (5 * dayOfYear + 2) / 153
  let day := dayOfYear - (153 * marchMonth + 2) / 5 + 1
  let month := if marchMonth < 10 then marchMonth + 3 else marchMonth - 9
  let year : Int := yearOfEra + era * 400
  ⟨if month ≤ 2 then year + 1 else year, month, day⟩

def text (d : Date) : String :=
  yearText d.year ++ "-" ++ padded 2 d.month ++ "-" ++ padded 2 d.day

end Date

namespace TimeOfDay
open Calendar

def microsPerSecond : Nat := 1000000

/-- A leap second may follow the last second of any minute. -/
def isValid (t : TimeOfDay) : Bool :=
  t.hour < 24 && t.minute < 60 && t.second < 60 &&
    (t.micros < microsPerSecond || (t.second == 59 && t.micros < 2 * microsPerSecond))

def microsPerDay : Int := 86400000000

/-- The time so many microseconds after midnight. -/
def ofMicros (micros : Nat) : TimeOfDay :=
  let seconds := micros / microsPerSecond
  ⟨seconds / 3600, seconds / 60 % 60, seconds % 60, micros % microsPerSecond⟩

/-- No fraction when it is zero, three digits when they are enough, else six. -/
def fractionText (micros : Nat) : String :=
  if micros = 0 then ""
  else if micros % 1000 = 0 then "." ++ padded 3 (micros / 1000)
  else "." ++ padded 6 micros

def text (t : TimeOfDay) : String :=
  padded 2 t.hour ++ ":" ++ padded 2 t.minute ++ ":" ++
    padded 2 (t.second + t.micros / microsPerSecond) ++ fractionText (t.micros % microsPerSecond)

end TimeOfDay

/-- A date with a time. -/
structure Moment where
  date : Date
  time : TimeOfDay
  deriving DecidableEq, Repr

namespace Moment

/-- The moment so many microseconds after the first of January of 2000. -/
def ofMicros (micros : Int) : Moment :=
  ⟨Date.ofDays (micros / TimeOfDay.microsPerDay),
    TimeOfDay.ofMicros (micros % TimeOfDay.microsPerDay).toNat⟩

/-- A moment in UTC, as text. -/
def text (m : Moment) : String := m.date.text ++ "T" ++ m.time.text ++ "+00:00"

example : TimeOfDay.text ⟨23, 59, 59, 1500000⟩ = "23:59:60.500" := by decide +kernel
example : (ofMicros 0).text = "2000-01-01T00:00:00+00:00" := by decide +kernel
example : (ofMicros (-1)).text = "1999-12-31T23:59:59.999999+00:00" := by decide +kernel
example : (Date.ofDays 59).text = "2000-02-29" := by decide +kernel
example : (Date.ofDays (-730486)).text = "-0001-12-31" := by decide +kernel

end Moment
end DocTable
