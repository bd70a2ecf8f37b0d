/-!
# Timestamps

Moments in universal time with nanosecond resolution. A leap second is a second
with a nanosecond count of one thousand million or more. It may follow any
second, but clocks show one at the end of a minute only. Days are counted from
1970-01-01 in the proleptic Gregorian calendar, which is split into eras of 400
years, and years are counted from March so that a leap day comes last.
-/

namespace GraphGateway

/-! ## Calendar -/

structure CivilDate where
  year : Int
  month : Nat
  day : Nat
  deriving DecidableEq

namespace CivilDate

def isLeapYear (year : Int) : Bool :=
  decide (year % 4 = 0) && (decide (year % 100 ≠ 0) || decide (year % 400 = 0))

/-- The number of days of a month, zero for a month that does not exist. -/
def daysInMonth (year : Int) (month : Nat) : Nat :=
  match month with
  | 2 => if isLeapYear year then 29 else 28
  | 4 | 6 | 9 | 11 => 30
  | 1 | 3 | 5 | 7 | 8 | 10 | 12 => 31
  | _ => 0

def isValid (d : CivilDate) : Bool :=
  decide (1 ≤ d.day) && decide (d.day ≤ daysInMonth d.year d.month)

/-- Days from 1970-01-01 to a date. -/
def dayNumber (d : CivilDate) : Int :=
  let year := if d.month ≤ 2 then d.year - 1 else d.year
  let era := year / 400
  let yearOfEra := year % 400
  let fromMarch : Int := ((d.month + 9) % 12 : Nat)
  let dayOfYear := (153 * fromMarch + 2) / 5 + d.day - 1
  let dayOfEra := yearOfEra * 365 + yearOfEra / 4 - yearOfEra / 100 + dayOfYear
  era * 146097 + dayOfEra - 719468

/-- The date that lies a number of days after 1970-01-01. -/
def ofDayNumber (n : Int) : CivilDate :=
  let shifted := n + 719468
  let era := shifted / 146097
  let dayOfEra := shifted % 146097
  let yearOfEra :=
    (dayOfEra - dayOfEra / 1460 + dayOfEra / 36524 - dayOfEra / 146096) / 365
  let dayOfYear := dayOfEra - (365 * yearOfEra + yearOfEra / 4 - yearOfEra / 100)
  let fromMarch := (5 * dayOfYear + 2) / 153
  let day := dayOfYear - (153 * fromMarch + 2) / 5 + 1
  let month := if fromMarch < 10 then fromMarch + 3 else fromMarch - 9
  let year := yearOfEra + era * 400
  ⟨if month ≤ 2 then year + 1 else year, month.toNat, day.toNat⟩

end CivilDate

/-! ## Moments -/

/-- The first second of the year -262143. -/
def firstSecond : Int :=
  -8334601228800

/-- The last second of the year 262142. -/
def lastSecond : Int :=
  8210266876799

/-- A moment: seconds since 1970-01-01T00:00:00 and nanoseconds within the second. -/
structure Timestamp where
  seconds : Int
  nanos : Nat
  nanos_lt : nanos < 2000000000
  in_range : firstSecond ≤ seconds ∧ seconds ≤ lastSecond
  deriving DecidableEq

namespace Timestamp

/-- The moment with the given seconds and nanoseconds, when clocks show it. -/
def ofParts? (seconds : Int) (nanos : Nat) : Option Timestamp :=
  if h : nanos < 2000000000 ∧ (1000000000 ≤ nanos → seconds % 60 = 59) ∧
      (firstSecond ≤ seconds ∧ seconds ≤ lastSecond) then
    some ⟨seconds, nanos, h.1, h.2.2⟩
  else none

def ofMillis? (millis : Int) : Option Timestamp :=
  ofParts? (millis / 1000) ((millis % 1000).toNat * 1000000)

/-- Earlier seconds first, then fewer nanoseconds. -/
def order (a b : Timestamp) : Ordering :=
  (compare a.seconds b.seconds).then (compare a.nanos b.nanos)

def date (t : Timestamp) : CivilDate :=
  .ofDayNumber (t.seconds / 86400)

def secondOfDay (t : Timestamp) : Nat :=
  (t.seconds % 86400).toNat

end Timestamp

end GraphGateway
