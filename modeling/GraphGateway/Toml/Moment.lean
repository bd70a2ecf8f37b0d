import GraphGateway.Timestamp.Iso
import GraphGateway.Timestamp.Reader

/-!
# Dates of TOML

A date, a time of day, or both together with an optional offset. What they stand
for is their text: letters in upper case, `T` between the date and the time, and
no zeros at the end of a fraction. A date may also be held by a string, in the
same form.
-/

namespace GraphGateway

namespace Toml

def fractionText (nanos : Nat) : List Char :=
  if nanos = 0 then []
  else '.' :: ((Text.padded 9 nanos).reverse.dropWhile (· == '0')).reverse

def readClock? (cs : List Char) : Option (List Char × List Char) := do
  let ((hour, minute, second), rest) ← Timestamp.fixedClock? cs
  let (nanos, tail) ← Timestamp.fraction? rest
  if hour < 24 ∧ minute < 60 ∧ second ≤ 60 then
    some (Timestamp.clockText hour minute second ++ fractionText nanos, tail)
  else none

/-- The text of an offset; an offset of nothing has a plus sign. -/
def offsetText (sign : Char) (minutes : Nat) : List Char :=
  (if minutes = 0 then '+' else sign) ::
    (Text.padded 2 (minutes / 60) ++ ':' :: Text.padded 2 (minutes % 60))

def readOffset? : List Char → Option (List Char × List Char)
  | [] => some ([], [])
  | c :: rest =>
      if c = 'Z' ∨ c = 'z' then some (['Z'], rest)
      else if c = '+' ∨ c = '-' then do
        let (hours, afterHours) ← Timestamp.exactly? 2 rest
        let afterColon ← Timestamp.literal? ':' afterHours
        let (minutes, tail) ← Timestamp.exactly? 2 afterColon
        if hours < 24 ∧ minutes < 60 then some (offsetText c (hours * 60 + minutes), tail)
        else none
      else some ([], c :: rest)

/-- What stands after a date: a time with its offset when one follows, otherwise nothing. -/
def readTime? (cs : List Char) : Option (List Char × List Char) :=
  match cs with
  | [] => some ([], [])
  | mark :: rest =>
      match if mark = 'T' ∨ mark = 't' ∨ mark = ' ' then readClock? rest else none with
      | none => some ([], cs)
      | some (clock, tail) =>
          (readOffset? tail).map fun (offset, next) => ('T' :: (clock ++ offset), next)

/-- A date, a time of day or both, and what follows them. -/
def readMoment? (cs : List Char) : Option (String × List Char) :=
  let written :=
    match Timestamp.fixedDate? cs with
    | none => readClock? cs
    | some (date, rest) =>
        if date.isValid then
          (readTime? rest).map fun (time, tail) => (Timestamp.dateText date ++ time, tail)
        else none
  written.map fun (text, tail) => (String.ofList text, tail)

def heldMoment? (s : String) : Option String :=
  match readMoment? s.toList with
  | some (text, []) => some text
  | _ => none

end Toml

end GraphGateway
