import GraphGateway.Timestamp
import GraphGateway.Text.Decimal

/-!
# Timestamps in ISO 8601

Text of a moment without offset: date, the letter `T`, time of day, and six
digits of a fraction when the moment has whole microseconds beyond the second. A
leap second is written as the second after the one it follows, which is second 60
at the end of a minute.
-/

namespace GraphGateway

namespace Timestamp

/-- A year: four digits up to 9999, otherwise with its sign. -/
def yearText (year : Int) : List Char :=
  if 0 ≤ year ∧ year ≤ 9999 then Text.padded 4 year.toNat
  else (if year < 0 then '-' else '+') :: Text.padded 4 year.natAbs

def dateText (d : CivilDate) : List Char :=
  yearText d.year ++ '-' :: (Text.padded 2 d.month ++ '-' :: Text.padded 2 d.day)

def clockText (hour minute second : Nat) : List Char :=
  Text.padded 2 hour ++ ':' :: (Text.padded 2 minute ++ ':' :: Text.padded 2 second)

/-- The fraction in microseconds, absent when the moment lies on a second. -/
def fractionText (nanos : Nat) : List Char :=
  if nanos / 1000 = 0 then []
  else '.' :: Text.padded 6 (nanos % 1000000000 / 1000)

def iso (t : Timestamp) : List Char :=
  let clock := t.secondOfDay
  let leap := t.nanos / 1000000000
  dateText t.date ++ 'T' ::
    (clockText (clock / 3600) (clock / 60 % 60) (clock % 60 + leap) ++ fractionText t.nanos)

def isoText (t : Timestamp) : String :=
  String.ofList t.iso

end Timestamp

end GraphGateway
