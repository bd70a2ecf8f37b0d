import GraphGateway.Binary64.Shortest

/-!
# Laying out decimals

Turning shortest digits into text. A `FloatStyle` holds every decision of a
format: which decimal exponents are written positionally, how an exponent is
marked, and whether a whole value keeps a point and a zero.
-/

namespace GraphGateway

namespace Binary64

structure FloatStyle where
  /-- Least decimal exponent that is written positionally; `none` for no limit. -/
  leastPositional : Option Int
  /-- Decimal exponent from which the exponent is written out; `none` for no limit. -/
  firstScientific : Option Int
  /-- Whether a positive exponent carries a plus sign. -/
  plusSign : Bool
  /-- Whether a whole value written positionally ends in `.0`. -/
  keepsPoint : Bool
  /-- Choice between two equally near decimals. -/
  tie : TieRule

/-- Digits with the point after `point` of them, padded with zeros on either side. -/
def positional (keepsPoint : Bool) (digits : List Char) (point : Int) : List Char :=
  if point ≤ 0 then
    '0' :: '.' :: (List.replicate (-point).toNat '0' ++ digits)
  else
    let count := point.toNat
    if digits.length ≤ count then
      digits ++ List.replicate (count - digits.length) '0' ++
        (if keepsPoint then ['.', '0'] else [])
    else digits.take count ++ '.' :: digits.drop count

/-- One digit, the others behind a point, and the exponent. -/
def scientific (plusSign : Bool) (digits : List Char) (exponent : Int) : List Char :=
  let mantissa :=
    match digits with
    | d :: e :: rest => d :: '.' :: e :: rest
    | short => short
  mantissa ++ 'e' :: ((if plusSign && decide (0 ≤ exponent) then ['+'] else []) ++
    Text.whole exponent)

def Finite.magnitudeText (x : Finite) (style : FloatStyle) : List Char :=
  if x.isZero then if style.keepsPoint then ['0', '.', '0'] else ['0']
  else
    let d := x.shortest style.tie
    let digits := Text.natural d.digits
    let exponent := d.exponent + digits.length - 1
    let large := style.firstScientific.any fun limit => decide (limit ≤ exponent)
    let small := style.leastPositional.any fun limit => decide (exponent < limit)
    if large || small then scientific style.plusSign digits exponent
    else positional style.keepsPoint digits (exponent + 1)

def Finite.text (x : Finite) (style : FloatStyle) : List Char :=
  (if x.negative then ['-'] else []) ++ x.magnitudeText style

/-- A number in a style, with the words `NaN`, `inf` and `-inf`. -/
def text (x : Binary64) (style : FloatStyle) : List Char :=
  match x with
  | nan => ['N', 'a', 'N']
  | infinite true => ['-', 'i', 'n', 'f']
  | infinite false => ['i', 'n', 'f']
  | finite y => y.text style

end Binary64

end GraphGateway
