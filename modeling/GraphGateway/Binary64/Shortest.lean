import GraphGateway.Binary64
import GraphGateway.Text.Decimal

/-!
# Shortest decimals

The fewest decimal digits that identify a finite number. A decimal identifies
the number when it lies in the interval of reals that round to it. Grids of
one, two, … up to seventeen digits are tried in turn: on each one the two
neighbours of the number are tested, the first grid with a hit wins, and of two
hits the nearer one. `TieRule` says which one to take when both are equally near.
-/

namespace GraphGateway

namespace Binary64

/-- Choice between two equally near decimals. -/
inductive TieRule where
  | toEven
  | upward
  deriving DecidableEq

/-- The decimal `digits * 10 ^ exponent`. -/
structure Decimal where
  digits : Nat
  exponent : Int

/-- The magnitude of a number and the ends of its rounding interval, over one denominator. -/
structure Interval where
  value : Nat
  low : Nat
  high : Nat
  den : Nat
  closed : Bool

/-- The reals that round to a number that is not zero; the ends belong to it when the significand
is even. -/
def Finite.interval (x : Finite) : Interval :=
  let scale := x.exponent - 2
  let up := Nat.pow 2 scale.toNat
  let value := 4 * x.significand
  { value := value * up
    low := (value - if x.atBinade then 1 else 2) * up
    high := (value + 2) * up
    den := Nat.pow 2 (-scale).toNat
    closed := decide (x.significand % 2 = 0) }

/-- The least `k` with `value < 10 ^ k`, found among `fuel` candidates from `start` upward. -/
def leastPower (value den : Nat) : Nat → Int → Int
  | 0, start => start
  | fuel + 1, start =>
      if value * Nat.pow 10 (-start).toNat < den * Nat.pow 10 start.toNat then start
      else leastPower value den fuel (start + 1)

/-- The decimal scale of a positive number: the least `k` with `value < 10 ^ k`. -/
def Interval.scale (i : Interval) : Int :=
  let bits : Int := binaryExponent i.value i.den
  leastPower i.value i.den 6 (bits * 30103 / 100000 - 2)

/-- Whether `candidate / gridDen` lies in the interval scaled by `factor`. -/
def Interval.holds (i : Interval) (factor candidate : Nat) : Bool :=
  if i.closed then decide (i.low * factor ≤ candidate) && decide (candidate ≤ i.high * factor)
  else decide (i.low * factor < candidate) && decide (candidate < i.high * factor)

/-- The nearest identifying point of the grid of multiples of `10 ^ exponent`, if any. -/
def Interval.onGrid? (i : Interval) (tie : TieRule) (exponent : Int) : Option Decimal :=
  let factor := Nat.pow 10 (-exponent).toNat
  let step := i.den * Nat.pow 10 exponent.toNat
  let below := i.value * factor / step
  let above := below + 1
  match i.holds factor (below * step), i.holds factor (above * step) with
  | false, false => none
  | true, false => some ⟨below, exponent⟩
  | false, true => some ⟨above, exponent⟩
  | true, true =>
      let twice := 2 * (i.value * factor)
      let middle := (below + above) * step
      if twice < middle then some ⟨below, exponent⟩
      else if middle < twice then some ⟨above, exponent⟩
      else
        match tie with
        | .upward => some ⟨above, exponent⟩
        | .toEven => some ⟨if below % 2 = 0 then below else above, exponent⟩

def Interval.search (i : Interval) (tie : TieRule) (scale : Int) : Nat → Nat → Option Decimal
  | 0, _ => none
  | fuel + 1, count =>
      match i.onGrid? tie (scale - count) with
      | some d => some d
      | none => i.search tie scale fuel (count + 1)

def Finite.exact (x : Finite) : Decimal :=
  if 0 ≤ x.exponent then ⟨x.significand * Nat.pow 2 x.exponent.toNat, 0⟩
  else ⟨x.significand * Nat.pow 5 (-x.exponent).toNat, x.exponent⟩

/-- Move trailing zeros of the digits into the exponent. -/
def Decimal.stripZeros : Nat → Decimal → Decimal
  | 0, d => d
  | fuel + 1, d =>
      if d.digits ≠ 0 ∧ d.digits % 10 = 0 then stripZeros fuel ⟨d.digits / 10, d.exponent + 1⟩
      else d

/-- The shortest decimal that identifies the magnitude of a number. -/
def Finite.shortest (x : Finite) (tie : TieRule) : Decimal :=
  if x.isZero then ⟨0, 0⟩
  else
    let i := x.interval
    Decimal.stripZeros 20 ((i.search tie i.scale 17 1).getD x.exact)

end Binary64

end GraphGateway
