import GraphGateway.Json
import GraphGateway.Binary64.Layout

/-!
# Writing JSON

The compact text of a document: no spaces, fields in order, the fewest digits
that identify a number, and escapes only where the format demands them.
-/

namespace GraphGateway

namespace Json

/-- Numbers stay positional from `10 ^ -5` below `10 ^ 16`; exponents carry their sign. -/
def numberStyle : Binary64.FloatStyle where
  leastPositional := some (-5)
  firstScientific := some 16
  plusSign := true
  keepsPoint := true
  tie := .toEven

def hexDigit (n : Nat) : Char :=
  Nat.digitChar (n % 16)

def escapeChar (c : Char) : List Char :=
  if c = '"' then ['\\', '"']
  else if c = '\\' then ['\\', '\\']
  else if c = '\x08' then ['\\', 'b']
  else if c = '\x0c' then ['\\', 'f']
  else if c = '\n' then ['\\', 'n']
  else if c = '\r' then ['\\', 'r']
  else if c = '\t' then ['\\', 't']
  else if c.toNat < 32 then
    ['\\', 'u', '0', '0', hexDigit (c.toNat / 16), hexDigit c.toNat]
  else [c]

def quoted (s : String) : List Char :=
  '"' :: (s.toList.flatMap escapeChar ++ ['"'])

mutual

def render : Json → List Char
  | .null => ['n', 'u', 'l', 'l']
  | .bool true => ['t', 'r', 'u', 'e']
  | .bool false => ['f', 'a', 'l', 's', 'e']
  | .int n => Text.whole n
  | .float x => x.text numberStyle
  | .string s => quoted s
  | .array items => '[' :: (renderItems items ++ [']'])
  | .object ⟨fields⟩ => '\x7b' :: (renderFields fields ++ ['\x7d'])

def renderItems : List Json → List Char
  | [] => []
  | [item] => render item
  | item :: next :: rest => render item ++ ',' :: renderItems (next :: rest)

def renderFields : List (String × Json) → List Char
  | [] => []
  | [(name, value)] => quoted name ++ ':' :: render value
  | (name, value) :: next :: rest =>
      quoted name ++ ':' :: (render value ++ ',' :: renderFields (next :: rest))

end

def text (j : Json) : String :=
  String.ofList j.render

end Json

end GraphGateway
