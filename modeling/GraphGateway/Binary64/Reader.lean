import GraphGateway.Binary64
import GraphGateway.Text.Decimal

/-!
# Reading decimals

Decimal text to the nearest binary64 number: an optional sign, then a word for
an infinity or for not a number in any letter case, or digits with an optional
point and an optional exponent.
-/

namespace GraphGateway

namespace Binary64

/-- An optional sign and the rest; `true` for minus. -/
def takeSign : List Char → Bool × List Char
  | '-' :: rest => (true, rest)
  | '+' :: rest => (false, rest)
  | rest => (false, rest)

/-- An exponent part that fills the whole text, `0` when there is none. -/
def readExponent? : List Char → Option Int
  | [] => some 0
  | c :: rest =>
      if c = 'e' ∨ c = 'E' then
        let (negative, digits) := takeSign rest
        (Text.natural? digits).map fun n => if negative then -(n : Int) else n
      else none

/-- Digits with an optional point and exponent, as a number without sign. -/
def readMagnitude? (negative : Bool) (cs : List Char) : Option Binary64 :=
  let (integral, rest) := Text.spanDigits cs
  let (fraction, tail) :=
    match rest with
    | '.' :: more => Text.spanDigits more
    | other => ([], other)
  let digits := integral ++ fraction
  if digits.isEmpty then none
  else
    (readExponent? tail).map fun e =>
      ofDecimal negative (Text.valueOf digits) digits.length (e - fraction.length)

def read? (cs : List Char) : Option Binary64 :=
  let (negative, rest) := takeSign cs
  let word := String.ofList (rest.map Char.toLower)
  if word = "inf" ∨ word = "infinity" then some (infinite negative)
  else if word = "nan" then some nan
  else readMagnitude? negative rest

end Binary64

end GraphGateway
