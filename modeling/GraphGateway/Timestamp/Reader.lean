import GraphGateway.Timestamp
import GraphGateway.Text.Blank
import GraphGateway.Text.Decimal

/-!
# Reading timestamps

Three forms are read, in this order: a full timestamp with an offset, whose
fields have fixed widths; a local timestamp, read as universal time, whose
fields may be shorter and may follow white space; and a date alone, which
stands for its first second. Second 60 is a leap second in any minute.
-/

namespace GraphGateway

namespace Timestamp

/-- Nanoseconds from the digits of a fraction; digits past the ninth are ignored. -/
def fractionNanos (digits : List Char) : Nat :=
  let kept := digits.take 9
  Text.valueOf kept * Nat.pow 10 (9 - kept.length)

def clock? (hour minute second nanos : Nat) : Option (Nat × Nat) :=
  if hour < 24 ∧ minute < 60 ∧ second ≤ 60 then
    if second = 60 then some (hour * 3600 + minute * 60 + 59, nanos + 1000000000)
    else some (hour * 3600 + minute * 60 + second, nanos)
  else none

/-- The moment of a date and a time of day that lies `offset` seconds ahead of universal time. -/
def ofCivil? (date : CivilDate) (clock : Nat × Nat) (offset : Int) : Option Timestamp :=
  if date.isValid then ofParts? (date.dayNumber * 86400 + clock.1 - offset) clock.2 else none

/-! ## Fixed widths -/

def exactly? (width : Nat) (cs : List Char) : Option (Nat × List Char) :=
  let digits := cs.take width
  if digits.length = width ∧ digits.all Text.isDigit then
    some (Text.valueOf digits, cs.drop width)
  else none

def literal? (c : Char) : List Char → Option (List Char)
  | [] => none
  | d :: rest => if d = c then some rest else none

def fraction? : List Char → Option (Nat × List Char)
  | '.' :: rest =>
      let (digits, tail) := Text.spanDigits rest
      if digits.isEmpty then none else some (fractionNanos digits, tail)
  | other => some (0, other)

/-- An offset in seconds that fills the whole text: `Z`, or a sign with hours and minutes. -/
def offset? : List Char → Option Int
  | [] => none
  | c :: rest =>
      if c = 'Z' ∨ c = 'z' then if rest.isEmpty then some 0 else none
      else if c = '+' ∨ c = '-' ∨ c = '\u2212' then do
        let (hours, afterHours) ← exactly? 2 rest
        let afterColon ← literal? ':' afterHours
        let (minutes, tail) ← exactly? 2 afterColon
        if tail.isEmpty ∧ hours < 24 ∧ minutes < 60 then
          let size : Int := (hours * 3600 + minutes * 60 : Nat)
          some (if c = '+' then size else -size)
        else none
      else none

def fixedDate? (cs : List Char) : Option (CivilDate × List Char) := do
  let (year, cs) ← exactly? 4 cs
  let cs ← literal? '-' cs
  let (month, cs) ← exactly? 2 cs
  let cs ← literal? '-' cs
  let (day, cs) ← exactly? 2 cs
  some (⟨year, month, day⟩, cs)

def fixedClock? (cs : List Char) : Option ((Nat × Nat × Nat) × List Char) := do
  let (hour, cs) ← exactly? 2 cs
  let cs ← literal? ':' cs
  let (minute, cs) ← exactly? 2 cs
  let cs ← literal? ':' cs
  let (second, cs) ← exactly? 2 cs
  some ((hour, minute, second), cs)

def readOffset? (cs : List Char) : Option Timestamp := do
  let (date, cs) ← fixedDate? cs
  match cs with
  | [] => none
  | mark :: cs =>
      if mark = 'T' ∨ mark = 't' ∨ mark = ' ' then do
        let ((hour, minute, second), cs) ← fixedClock? cs
        let (nanos, cs) ← fraction? cs
        let offset ← offset? cs
        let clock ← clock? hour minute second nanos
        ofCivil? date clock offset
      else none

/-! ## Variable widths -/

/-- One up to `width` digits after white space, and what follows them. -/
def upTo? (width : Nat) (cs : List Char) : Option (Nat × List Char) :=
  let cs := Text.skipBlanks cs
  let digits := (cs.take width).takeWhile Text.isDigit
  if digits.isEmpty then none else some (Text.valueOf digits, cs.drop digits.length)

/-- A year after white space: up to four digits, or any number of them after a sign. -/
def looseYear? (cs : List Char) : Option (Int × List Char) :=
  let signed (negative : Bool) (rest : List Char) : Option (Int × List Char) :=
    let (digits, tail) := Text.spanDigits rest
    if digits.isEmpty then none
    else
      let size : Int := Text.valueOf digits
      some (if negative then -size else size, tail)
  match Text.skipBlanks cs with
  | '-' :: rest => signed true rest
  | '+' :: rest => signed false rest
  | other => (upTo? 4 other).map fun (n, tail) => (n, tail)

def looseDate? (cs : List Char) : Option (CivilDate × List Char) := do
  let (year, cs) ← looseYear? cs
  let cs ← literal? '-' cs
  let (month, cs) ← upTo? 2 cs
  let cs ← literal? '-' cs
  let (day, cs) ← upTo? 2 cs
  some (⟨year, month, day⟩, cs)

/-- A local timestamp, read as universal time. -/
def readLocal? (cs : List Char) : Option Timestamp := do
  let (date, cs) ← looseDate? cs
  let cs ← literal? 'T' cs
  let (hour, cs) ← upTo? 2 cs
  let cs ← literal? ':' cs
  let (minute, cs) ← upTo? 2 cs
  let cs ← literal? ':' cs
  let (second, cs) ← upTo? 2 cs
  let (nanos, cs) ← fraction? cs
  if cs.isEmpty then do
    let clock ← clock? hour minute second nanos
    ofCivil? date clock 0
  else none

/-- A date alone, read as its first second. -/
def readDate? (cs : List Char) : Option Timestamp := do
  let (date, cs) ← looseDate? cs
  if cs.isEmpty then ofCivil? date (0, 0) 0 else none

def read? (text : String) : Option Timestamp :=
  let cs := text.toList
  (readOffset? cs).orElse fun _ => (readLocal? cs).orElse fun _ => readDate? cs

end Timestamp

end GraphGateway
