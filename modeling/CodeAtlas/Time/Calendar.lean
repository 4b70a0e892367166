/-!
The calendar: dates and their numbers. Day 1 is the first day of year 1, and the rule of leap years
holds backwards to it.
-/

namespace CodeAtlas.Time

structure Date where
  year : Nat
  month : Nat
  day : Nat
deriving DecidableEq, Repr

def isLeapYear (year : Nat) : Bool := year % 4 == 0 && (year % 100 != 0 || year % 400 == 0)

def monthLengths (year : Nat) : List Nat :=
  [31, if isLeapYear year then 29 else 28, 31, 30, 31, 30, 31, 31, 30, 31, 30, 31]

def Date.isValid (date : Date) : Bool :=
  1 ≤ date.year && date.year ≤ 9999 && 1 ≤ date.month
    && 1 ≤ date.day && ((monthLengths date.year)[date.month - 1]?).any (date.day ≤ ·)

def daysBeforeYear (year : Nat) : Nat :=
  let past := year - 1
  past * 365 + past / 4 - past / 100 + past / 400

def Date.number (date : Date) : Nat :=
  ((monthLengths date.year).take (date.month - 1)).foldl (· + ·) (daysBeforeYear date.year) + date.day

def monthAndDay : Nat → Nat → List Nat → Nat × Nat
  | month, day, [] => (month, day)
  | month, day, length :: rest =>
    if day ≤ length then (month, day) else monthAndDay (month + 1) (day - length) rest

/-- The year that a day lies in: it is found near the quotient by the mean length of a year. -/
def yearOf (number : Nat) : Nat :=
  let guess := (number * 400 + 146096) / 146097
  if number ≤ daysBeforeYear guess then guess - 1
  else if daysBeforeYear (guess + 1) < number then guess + 1
  else guess

def Date.ofNumber (number : Nat) : Date :=
  let year := yearOf number
  let (month, day) := monthAndDay 1 (number - daysBeforeYear year) (monthLengths year)
  ⟨year, month, day⟩

/-- The number of the Monday that starts the first week of a year, the week with its first
Thursday. -/
def firstMonday (year : Nat) : Nat :=
  let first := daysBeforeYear year + 1
  let weekday := (first + 6) % 7
  if weekday > 3 then first - weekday + 7 else first - weekday

/-- Whether a year has a fifty-third week: it starts on a Thursday, or on a Wednesday and is a leap
year. -/
def hasLongCalendar (year : Nat) : Bool :=
  let weekday := (daysBeforeYear year + 1) % 7
  weekday == 4 || (weekday == 3 && isLeapYear year)

def Date.ofWeek? (year week day : Nat) : Option Date :=
  if 1 ≤ year && year ≤ 9999 && 1 ≤ week && (week ≤ 52 || (week == 53 && hasLongCalendar year))
      && 1 ≤ day && day ≤ 7 then
    some (.ofNumber (firstMonday year + (week - 1) * 7 + (day - 1)))
  else none

end CodeAtlas.Time
