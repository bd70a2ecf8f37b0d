import GraphGateway.Binary64.Reader
import GraphGateway.Json
import GraphGateway.Settings.Entry
import GraphGateway.Text.Hexadecimal
import GraphGateway.Text.Pieces

/-!
# Scalars of TOML

Strings, truth values and numbers of the configuration format, and the blanks
and comments between them. Strings stand between single or double quotes, once
or three times over; only double quotes give backslashes a meaning, and only
three quotes admit line breaks.
-/

namespace GraphGateway

namespace Toml

/-! ## Blanks and comments -/

def isSpace (c : Char) : Bool :=
  c == ' ' || c == '\t'

def skipSpaces (cs : List Char) : List Char :=
  cs.dropWhile isSpace

def isControl (c : Char) : Bool :=
  (decide (c.toNat < 32) && c != '\t') || c == '\x7f'

def lineBreak? : List Char → Option (List Char)
  | '\n' :: rest => some rest
  | '\r' :: '\n' :: rest => some rest
  | _ => none

def skipComment : List Char → List Char
  | '#' :: rest => rest.dropWhile fun c => !isControl c
  | cs => cs

/-- What follows the end of a line: spaces, an optional comment, and a line break or the end. -/
def endLine? (cs : List Char) : Option (List Char) :=
  match skipComment (skipSpaces cs) with
  | [] => some []
  | rest => lineBreak? rest

def skipLines : Nat → List Char → List Char
  | 0, cs => cs
  | fuel + 1, cs =>
      let rest := skipComment (skipSpaces cs)
      match lineBreak? rest with
      | some next => skipLines fuel next
      | none => rest

/-! ## Strings -/

structure Quote where
  mark : Char
  /-- Whether a backslash opens an escape. -/
  escapes : Bool
  /-- Whether the mark stands three times and the string may hold line breaks. -/
  tripled : Bool

/-- The character of a code point that stands for one. -/
def scalar? (code : Nat) : Option Char :=
  if code < 0xD800 ∨ (0xE000 ≤ code ∧ code < 0x110000) then some (Char.ofNat code) else none

def escape? : List Char → Option (Char × List Char)
  | [] => none
  | c :: rest =>
      if c = 'b' then some ('\x08', rest)
      else if c = 't' then some ('\t', rest)
      else if c = 'n' then some ('\n', rest)
      else if c = 'f' then some ('\x0c', rest)
      else if c = 'r' then some ('\r', rest)
      else if c = '"' ∨ c = '\\' then some (c, rest)
      else if c = 'u' ∨ c = 'U' then do
        let (code, tail) ← Text.takeHex? (if c = 'u' then 4 else 8) rest
        let d ← scalar? code
        some (d, tail)
      else none

def skipBlankLines : Nat → List Char → List Char
  | 0, cs => cs
  | fuel + 1, cs =>
      match lineBreak? (skipSpaces cs) with
      | some rest => skipBlankLines fuel rest
      | none => skipSpaces cs

/-- What follows a backslash that ends its line, with the blank lines after it skipped. -/
def continuation? (cs : List Char) : Option (List Char) :=
  (lineBreak? (skipSpaces cs)).map fun rest => skipBlankLines (rest.length + 1) rest

/-- The rest of a string after its opening; the text comes in reverse. -/
def readQuoted (q : Quote) : Nat → List Char → List Char → Option (String × List Char)
  | 0, _, _ => none
  | _ + 1, _, [] => none
  | fuel + 1, acc, c :: rest =>
      if c = q.mark then
        if q.tripled then
          match Text.strip? [q.mark, q.mark] rest with
          | some tail =>
              let extra := min 2 (tail.takeWhile (· == q.mark)).length
              some (String.ofList (List.replicate extra q.mark ++ acc).reverse, tail.drop extra)
          | none => readQuoted q fuel (c :: acc) rest
        else some (String.ofList acc.reverse, rest)
      else if c = '\\' ∧ q.escapes then
        match if q.tripled then continuation? rest else none with
        | some tail => readQuoted q fuel acc tail
        | none =>
            match escape? rest with
            | some (d, tail) => readQuoted q fuel (d :: acc) tail
            | none => none
      else if q.tripled then
        match lineBreak? (c :: rest) with
        | some tail => readQuoted q fuel ('\n' :: acc) tail
        | none => if isControl c then none else readQuoted q fuel (c :: acc) rest
      else if isControl c then none
      else readQuoted q fuel (c :: acc) rest

/-- A string on one line, or `none` when the text does not begin with a quote. -/
def readLineString? (cs : List Char) : Option (String × List Char) :=
  match cs with
  | '"' :: rest => readQuoted ⟨'"', true, false⟩ (cs.length + 1) [] rest
  | '\'' :: rest => readQuoted ⟨'\'', false, false⟩ (cs.length + 1) [] rest
  | _ => none

/-- A string of either form; a line break right after three quotes is not part of it. -/
def readString? (cs : List Char) : Option (String × List Char) :=
  let tripled (mark : Char) (escapes : Bool) : Option (String × List Char) :=
    match Text.strip? [mark, mark, mark] cs with
    | some rest =>
        readQuoted ⟨mark, escapes, true⟩ (cs.length + 1) [] ((lineBreak? rest).getD rest)
    | none => readLineString? cs
  match cs with
  | '"' :: _ => tripled '"' true
  | '\'' :: _ => tripled '\'' false
  | _ => none

/-! ## Numbers and words -/

/-- Digits in groups that are joined by single underscores. -/
def ungrouped? (isDigit : Char → Bool) (cs : List Char) : Option (List Char) :=
  let groups := Text.pieces '_' cs
  if groups.all fun g => !g.isEmpty && g.all isDigit then some groups.flatten else none

/-- Decimal digits in groups, without a leading zero. -/
def decimal? (cs : List Char) : Option (List Char) :=
  (ungrouped? Text.isDigit cs).filter fun digits =>
    digits.length == 1 || digits.head? != some '0'

def whole? (n : Int) : Option Entry :=
  if Json.fitsInt64 n then some (.whole n) else none

def inBase? (base : Nat) (cs : List Char) : Option Entry := do
  let isDigit (c : Char) : Bool := (Text.hexDigit? c).any fun d => decide (d.val < base)
  let digits ← ungrouped? isDigit cs
  let values ← Text.hexDigits? digits
  whole? (values.foldl (fun n d => n * base + d.val) (0 : Nat))

def exponent? (cs : List Char) : Option (List Char) :=
  match cs with
  | '+' :: rest => ungrouped? Text.isDigit rest
  | '-' :: rest => (ungrouped? Text.isDigit rest).map ('-' :: ·)
  | rest => ungrouped? Text.isDigit rest

/-- The number written by a decimal text; above the greatest one there is none, below the least one
it is the negative infinity. -/
def decimalNumber? (cs : List Char) : Option Entry :=
  ((Binary64.read? cs).filter fun x => x != .infinite false).map .number

def unsigned? (negative : Bool) (cs : List Char) : Option Entry := do
  let sign := if negative then ['-'] else []
  let isMark (c : Char) : Bool := c == 'e' || c == 'E'
  let mantissa := cs.takeWhile fun c => !isMark c
  let power := cs.dropWhile fun c => !isMark c
  let tail ←
    match power with
    | [] => some []
    | _ :: rest => (exponent? rest).map ('e' :: ·)
  match Text.pieces '.' mantissa with
  | [integral] =>
      let digits ← decimal? integral
      if power.isEmpty then
        let n : Int := Text.valueOf digits
        whole? (if negative then -n else n)
      else decimalNumber? (sign ++ digits ++ tail)
  | [integral, fraction] =>
      let digits ← decimal? integral
      let places ← ungrouped? Text.isDigit fraction
      decimalNumber? (sign ++ digits ++ '.' :: (places ++ tail))
  | _ => none

def number? (cs : List Char) : Option Entry :=
  match cs with
  | '0' :: 'x' :: rest => inBase? 16 rest
  | '0' :: 'o' :: rest => inBase? 8 rest
  | '0' :: 'b' :: rest => inBase? 2 rest
  | _ =>
      let (negative, rest) := Binary64.takeSign cs
      if rest = ['i', 'n', 'f'] then some (.number (.infinite negative))
      else if rest = ['n', 'a', 'n'] then some (.number .nan)
      else unsigned? negative rest

def isWordChar (c : Char) : Bool :=
  c.isAlphanum || c == '_' || c == '+' || c == '-' || c == '.'

def readWord? (cs : List Char) : Option (Entry × List Char) :=
  let word := cs.takeWhile isWordChar
  let rest := cs.dropWhile isWordChar
  let entry :=
    if word = ['t', 'r', 'u', 'e'] then some (.flag true)
    else if word = ['f', 'a', 'l', 's', 'e'] then some (.flag false)
    else number? word
  entry.map fun e => (e, rest)

end Toml

end GraphGateway
