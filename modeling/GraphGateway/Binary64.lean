/-!
# Binary64 numbers

The 64-bit floating-point numbers as a datatype of their own: not a number,
two infinities, and the finite numbers, each of which is a sign and the rank of
its magnitude among all magnitudes in ascending order. Rank and order agree,
so comparing finite numbers is comparing integers, and every number decodes to
`significand * 2 ^ exponent`. Arithmetic is exact and rounded once, to the
nearest number, ties to the even rank.
-/

namespace GraphGateway

namespace Binary64

/-- The rank that follows the greatest finite magnitude. -/
def infinityRank : Nat :=
  0x7FF0000000000000

/-- A finite number: a sign, and the rank of the magnitude (exponent and fraction in one number). -/
structure Finite where
  negative : Bool
  rank : Nat
  rank_lt : rank < infinityRank
  deriving DecidableEq

end Binary64

/-- A 64-bit floating-point number; all values that are not a number are one. -/
inductive Binary64 where
  | nan
  | infinite (negative : Bool)
  | finite (x : Binary64.Finite)
  deriving DecidableEq

namespace Binary64

namespace Finite

def zero (negative : Bool) : Finite :=
  ⟨negative, 0, by decide⟩

def significand (x : Finite) : Nat :=
  if x.rank < Nat.pow 2 52 then x.rank else Nat.pow 2 52 + x.rank % Nat.pow 2 52

def exponent (x : Finite) : Int :=
  (max 1 (x.rank / Nat.pow 2 52) : Nat) - 1075

/-- Whether the gap below the magnitude is half the gap above it. -/
def atBinade (x : Finite) : Bool :=
  decide (Nat.pow 2 53 ≤ x.rank) && decide (x.rank % Nat.pow 2 52 = 0)

/-- The signed rank, an integer that orders the finite numbers; both zeros are 0. -/
def signedRank (x : Finite) : Int :=
  if x.negative then -(x.rank : Int) else x.rank

def negate (x : Finite) : Finite :=
  { x with negative := !x.negative }

def isZero (x : Finite) : Bool :=
  x.rank == 0

end Finite

def negate : Binary64 → Binary64
  | nan => nan
  | infinite negative => infinite (!negative)
  | finite x => finite x.negate

/-- A position on the number line that orders all numbers except `nan`. -/
def position? : Binary64 → Option Int
  | nan => none
  | infinite negative => some (if negative then -(infinityRank : Int) else infinityRank)
  | finite x => some x.signedRank

/-- Numeric order; `nan` is comparable with nothing. -/
def compare? (x y : Binary64) : Option Ordering :=
  match x.position?, y.position? with
  | some p, some q => some (compare p q)
  | _, _ => none

/-- Numeric equality: the zeros are equal, and `nan` equals nothing. -/
def numericEq (x y : Binary64) : Bool :=
  x.compare? y == some .eq

/-! ## Rounding -/

/-- The integer nearest to `num / den`; a tie goes to the even neighbour. -/
def roundQuotient (num den : Nat) : Nat :=
  let q := num / den
  let twice := 2 * (num % den)
  if twice < den then q
  else if den < twice then q + 1
  else if q % 2 = 0 then q else q + 1

/-- The exponent `e` with `2 ^ e ≤ num / den < 2 ^ (e + 1)`, for positive arguments. -/
def binaryExponent (num den : Nat) : Int :=
  let e : Int := (num.log2 : Int) - den.log2
  let reached :=
    if 0 ≤ e then den * Nat.pow 2 e.toNat ≤ num else den ≤ num * Nat.pow 2 (-e).toNat
  if reached then e else e - 1

/-- The number whose magnitude has the given rank, infinite when there is none. -/
def ofRank (negative : Bool) (rank : Nat) : Binary64 :=
  if h : rank < infinityRank then finite ⟨negative, rank, h⟩ else infinite negative

/-- The number nearest to `num / den`, ties to even, with the given sign. -/
def ofFraction (negative : Bool) (num den : Nat) : Binary64 :=
  if num = 0 then finite (.zero negative)
  else
    let scale := max (binaryExponent num den - 52) (-1074)
    let significand :=
      if 0 ≤ scale then roundQuotient num (den * Nat.pow 2 scale.toNat)
      else roundQuotient (num * Nat.pow 2 (-scale).toNat) den
    ofRank negative (significand + (scale + 1074).toNat * Nat.pow 2 52)

/-- The number nearest to `num / den * 2 ^ scale`. -/
def ofScaled (negative : Bool) (num den : Nat) (scale : Int) : Binary64 :=
  if 0 ≤ scale then ofFraction negative (num * Nat.pow 2 scale.toNat) den
  else ofFraction negative num (den * Nat.pow 2 (-scale).toNat)

def ofInt (n : Int) : Binary64 :=
  ofFraction (decide (n < 0)) n.natAbs 1

/-- The number nearest to `digits * 10 ^ scale`, where `digits` has at most `width` decimals. -/
def ofDecimal (negative : Bool) (digits width : Nat) (scale : Int) : Binary64 :=
  if digits = 0 then finite (.zero negative)
  else if 310 < scale then infinite negative
  else if (width : Int) + scale < -330 then finite (.zero negative)
  else if 0 ≤ scale then ofFraction negative (digits * Nat.pow 10 scale.toNat) 1
  else ofFraction negative digits (Nat.pow 10 (-scale).toNat)

def Finite.mul (x y : Finite) : Binary64 :=
  ofScaled (x.negative != y.negative) (x.significand * y.significand) 1 (x.exponent + y.exponent)

/-- The rounded quotient by a divisor that is not zero. -/
def Finite.div (x y : Finite) : Binary64 :=
  ofScaled (x.negative != y.negative) x.significand y.significand (x.exponent - y.exponent)

/-- The number nearest to a power of ten up to `10 ^ 308`. -/
def tenth (k : Nat) : Finite :=
  match ofFraction false (Nat.pow 10 (min k 308)) 1 with
  | finite x => x
  | _ => .zero false

end Binary64

end GraphGateway
