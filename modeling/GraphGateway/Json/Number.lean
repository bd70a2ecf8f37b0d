import GraphGateway.Json
import GraphGateway.Text.Decimal

/-!
# Reading JSON numbers

A number literal without point and exponent is whole as long as it fits 64
bits, signed or unsigned; every other literal becomes a binary64 number. Its
leading digits are collected into a significand for as long as it fits 64 bits,
further ones only move the decimal exponent, and one multiplication or division
by a power of ten gives the result. A literal beyond the greatest finite number
is refused.
-/

namespace GraphGateway

namespace Json

def greatestWord : Nat :=
  UInt64.size - 1

/-- Greatest decimal exponent whose digits are taken as they stand. -/
def greatestExponent : Nat :=
  Nat.pow 2 31 - 1

/-- Leading digits collected into a word, how many were taken, and the digits left over. -/
def collect : List Char → Nat → Nat → Nat × Nat × List Char
  | [], word, count => (word, count, [])
  | c :: rest, word, count =>
      let next := word * 10 + (Text.digit? c).getD 0
      if next ≤ greatestWord then collect rest next (count + 1) else (word, count, c :: rest)

/-- Scale a number by a power of ten in steps of at most 308; `none` beyond the finite numbers. -/
def scaleTen : Nat → Binary64.Finite → Int → Option Binary64.Finite
  | 0, x, _ => some x
  | fuel + 1, x, exponent =>
      if 308 < exponent.natAbs then
        if x.isZero then some x
        else if 0 < exponent then none
        else
          match x.div (Binary64.tenth 308) with
          | .finite y => scaleTen fuel y (exponent + 308)
          | _ => none
      else
        let power := Binary64.tenth exponent.natAbs
        match if 0 ≤ exponent then x.mul power else x.div power with
        | .finite y => some y
        | _ => none

def ofParts (negative : Bool) (word : Nat) (exponent : Int) : Option Json :=
  match Binary64.ofFraction false word 1 with
  | .finite x =>
      (scaleTen 4 x exponent).map fun y => .float (if negative then y.negate else y)
  | _ => none

/-- A number with an explicit decimal exponent, whose digits stand in `digits`. -/
def ofScientific (negative : Bool) (word : Nat) (start : Int) (below : Bool)
    (digits : List Char) : Option Json :=
  let size := Text.valueOf digits
  if greatestExponent < size then
    if word ≠ 0 ∧ below = false then none else some (.float (.zero negative))
  else ofParts negative word (if below then start - size else start + size)

def takeExponent? (cs : List Char) : Option (Bool × List Char × List Char) :=
  let (below, rest) :=
    match cs with
    | '+' :: more => (false, more)
    | '-' :: more => (true, more)
    | other => (false, other)
  let (digits, tail) := Text.spanDigits rest
  if digits.isEmpty then none else some (below, digits, tail)

def finishFloat (negative : Bool) (word : Nat) (exponent : Int) (cs : List Char) :
    Option (Json × List Char) :=
  match cs with
  | c :: rest =>
      if c = 'e' ∨ c = 'E' then
        match takeExponent? rest with
        | none => none
        | some (below, digits, tail) =>
            (ofScientific negative word exponent below digits).map fun j => (j, tail)
      else (ofParts negative word exponent).map fun j => (j, cs)
  | [] => (ofParts negative word exponent).map fun j => (j, [])

def ofWord (negative : Bool) (word : Nat) : Json :=
  if negative then
    if word = 0 ∨ Nat.pow 2 63 < word then
      match Binary64.ofFraction true word 1 with
      | .finite x => .float x
      | _ => .null
    else .int (-(word : Int))
  else .int word

def readUnsigned (negative : Bool) (cs : List Char) : Option (Json × List Char) :=
  let (integral, rest) := Text.spanDigits cs
  if integral.isEmpty ∨ (integral.length ≠ 1 ∧ integral.head? = some '0') then none
  else
    let (word, _, surplus) := collect integral 0 0
    match rest with
    | '.' :: more =>
        let (fraction, tail) := Text.spanDigits more
        if fraction.isEmpty then none
        else
          let (extended, taken, _) := collect fraction word 0
          finishFloat negative extended ((surplus.length : Int) - taken) tail
    | c :: more =>
        if c = 'e' ∨ c = 'E' ∨ surplus ≠ [] then
          finishFloat negative word surplus.length (c :: more)
        else some (ofWord negative word, c :: more)
    | [] =>
        if surplus ≠ [] then finishFloat negative word surplus.length []
        else some (ofWord negative word, [])

def readNumber (cs : List Char) : Option (Json × List Char) :=
  match cs with
  | '-' :: rest => readUnsigned true rest
  | other => readUnsigned false other

end Json

end GraphGateway
