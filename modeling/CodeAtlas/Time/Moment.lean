import CodeAtlas.Time.Calendar
import CodeAtlas.Json.Access

/-!
Moments as a clock shows them, to the microsecond, with or without the distance of that clock from
the common time. Moments of the two kinds cannot be compared.
-/

namespace CodeAtlas.Time

def second : Nat := 1000000

def minute : Nat := 60 * second

def hour : Nat := 60 * minute

def day : Nat := 24 * hour

structure Moment where
  ticks : Int
  /-- How far the clock is ahead of the common time, in microseconds, if it is known. -/
  ahead : Option Int := none
deriving DecidableEq, Repr

def fractionText (ticks : Nat) : String :=
  if ticks == 0 then "" else "." ++ Decimal.paddedText 6 ticks

def clockParts (ticks : Nat) : Nat × Nat × Nat × Nat :=
  (ticks / hour, ticks / minute % 60, ticks / second % 60, ticks % second)

def hourText (ticks : Nat) : String :=
  let (hours, minutes, seconds, _) := clockParts ticks
  Text.join ":" ([hours, minutes, seconds].map (Decimal.paddedText 2))

/-- How far a clock is ahead, with a sign; seconds only where they are needed. -/
def aheadText (ahead : Int) : String :=
  let (hours, minutes, seconds, fraction) := clockParts ahead.natAbs
  let parts := [hours, minutes] ++ if seconds == 0 && fraction == 0 then [] else [seconds]
  (if ahead < 0 then "-" else "+") ++ Text.join ":" (parts.map (Decimal.paddedText 2)) ++
    fractionText fraction

namespace Moment

def ofDay (moment : Moment) : Nat := (moment.ticks % day).toNat

def date (moment : Moment) : Date := .ofNumber ((moment.ticks / day).toNat + 1)

def clock (moment : Moment) : String := hourText moment.ofDay

def dateText (moment : Moment) (separator : String := "-") : String :=
  let date := moment.date
  Text.join separator [Decimal.paddedText 4 date.year, Decimal.paddedText 2 date.month,
    Decimal.paddedText 2 date.day]

/-- The written form of a moment: date, hour, a fraction of six digits if there is one, and how far
the clock is ahead if that is known. -/
def text (moment : Moment) : String :=
  moment.dateText ++ "T" ++ moment.clock ++ fractionText (moment.ofDay % second) ++
    (moment.ahead.map aheadText).getD ""

def since? (moment earlier : Moment) : Option Int :=
  match moment.ahead, earlier.ahead with
  | none, none => some (moment.ticks - earlier.ticks)
  | some ahead, some other => some (moment.ticks - ahead - (earlier.ticks - other))
  | _, _ => none

def isBefore (moment limit : Moment) : Except Fault Bool :=
  match moment.since? limit with
  | some distance => .ok (distance < 0)
  | none => .error .wrongKind

def endOfTime : Int := daysBeforeYear 10000 * day

def earlier (moment : Moment) (span : Int) : Except Fault Moment :=
  let ticks := moment.ticks - span
  if 0 ≤ ticks && ticks < endOfTime then .ok { moment with ticks } else .error .outOfRange

/-- Where a moment lies on the common time; a moment whose clock is not known to be ahead counts
as it is. -/
def position (moment : Moment) : Int := moment.ticks - moment.ahead.getD 0

end Moment

/-- The microseconds of so many days; there is a limit to their number. -/
def spanOfDays (days : Int) : Except Fault Int :=
  if days.natAbs < 1000000000 then .ok (days * day) else .error .outOfRange

end CodeAtlas.Time
