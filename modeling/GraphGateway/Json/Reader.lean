import GraphGateway.Json.Number
import GraphGateway.Text.Hexadecimal

/-!
# Reading JSON

A reader of the whole data format. Arrays and objects nest at most 127 deep,
control characters inside strings are refused, and so are escapes that name
half of a surrogate pair. Of several fields with one name the last value counts,
at the place of the first.
-/

namespace GraphGateway

namespace Json

/-- How deep arrays and objects may nest, plus one. -/
def depthLimit : Nat :=
  128

def isBlank (c : Char) : Bool :=
  c == ' ' || c == '\n' || c == '\t' || c == '\r'

def skipBlanks (cs : List Char) : List Char :=
  cs.dropWhile isBlank

def takeUnicode? (cs : List Char) : Option (Char × List Char) :=
  match Text.takeHex? 4 cs with
  | none => none
  | some (unit, rest) =>
      if 0xDC00 ≤ unit ∧ unit < 0xE000 then none
      else if 0xD800 ≤ unit ∧ unit < 0xDC00 then
        match rest with
        | '\\' :: 'u' :: more =>
            match Text.takeHex? 4 more with
            | none => none
            | some (second, tail) =>
                if 0xDC00 ≤ second ∧ second < 0xE000 then
                  some (Char.ofNat (0x10000 + (unit - 0xD800) * 0x400 + (second - 0xDC00)), tail)
                else none
        | _ => none
      else some (Char.ofNat unit, rest)

def simpleEscape? (c : Char) : Option Char :=
  if c = '"' then some '"'
  else if c = '\\' then some '\\'
  else if c = '/' then some '/'
  else if c = 'b' then some '\x08'
  else if c = 'f' then some '\x0c'
  else if c = 'n' then some '\n'
  else if c = 'r' then some '\r'
  else if c = 't' then some '\t'
  else none

/-- The rest of a string after its opening quote; the text comes in reverse. -/
def readString : Nat → List Char → List Char → Option (List Char × List Char)
  | 0, _, _ => none
  | _ + 1, _, [] => none
  | fuel + 1, acc, c :: rest =>
      if c = '"' then some (acc.reverse, rest)
      else if c = '\\' then
        match rest with
        | 'u' :: more =>
            match takeUnicode? more with
            | some (d, tail) => readString fuel (d :: acc) tail
            | none => none
        | e :: more =>
            match simpleEscape? e with
            | some d => readString fuel (d :: acc) more
            | none => none
        | [] => none
      else if c.toNat < 32 then none
      else readString fuel (c :: acc) rest

def takeString? (cs : List Char) : Option (String × List Char) :=
  (readString (cs.length + 1) [] cs).map fun (text, rest) => (String.ofList text, rest)

mutual

/-- One value, with room for `depth` more levels of nesting. -/
def readValue (fuel depth : Nat) (cs : List Char) : Option (Json × List Char) :=
  match fuel with
  | 0 => none
  | fuel + 1 =>
      match skipBlanks cs with
      | [] => none
      | '"' :: rest => (takeString? rest).map fun (s, tail) => (.string s, tail)
      | '[' :: rest =>
          if depth ≤ 1 then none
          else
            match skipBlanks rest with
            | ']' :: tail => some (.array [], tail)
            | other =>
                (readItems fuel (depth - 1) [] other).map fun (items, tail) => (.array items, tail)
      | '\x7b' :: rest =>
          if depth ≤ 1 then none
          else
            match skipBlanks rest with
            | '\x7d' :: tail => some (.object .empty, tail)
            | other =>
                (readFields fuel (depth - 1) .empty other).map fun (fields, tail) =>
                  (.object fields, tail)
      | 't' :: rest => (Text.strip? ['r', 'u', 'e'] rest).map fun tail => (.bool true, tail)
      | 'f' :: rest => (Text.strip? ['a', 'l', 's', 'e'] rest).map fun tail => (.bool false, tail)
      | 'n' :: rest => (Text.strip? ['u', 'l', 'l'] rest).map fun tail => (.null, tail)
      | other => readNumber other

/-- The items of an array up to its closing bracket; earlier items come in reverse. -/
def readItems (fuel depth : Nat) (acc : List Json) (cs : List Char) :
    Option (List Json × List Char) :=
  match fuel with
  | 0 => none
  | fuel + 1 =>
      match readValue fuel depth cs with
      | none => none
      | some (item, rest) =>
          match skipBlanks rest with
          | ',' :: tail => readItems fuel depth (item :: acc) tail
          | ']' :: tail => some ((item :: acc).reverse, tail)
          | _ => none

def readFields (fuel depth : Nat) (acc : Fields) (cs : List Char) :
    Option (Fields × List Char) :=
  match fuel with
  | 0 => none
  | fuel + 1 =>
      match skipBlanks cs with
      | '"' :: opened =>
          match takeString? opened with
          | none => none
          | some (name, afterName) =>
              match skipBlanks afterName with
              | ':' :: afterColon =>
                  match readValue fuel depth afterColon with
                  | none => none
                  | some (value, rest) =>
                      match skipBlanks rest with
                      | ',' :: tail => readFields fuel depth (acc.insert name value) tail
                      | '\x7d' :: tail => some (acc.insert name value, tail)
                      | _ => none
              | _ => none
      | _ => none

end

def readFirst? (cs : List Char) : Option (Json × List Char) :=
  readValue (2 * cs.length + 2) depthLimit cs

def read? (text : String) : Option Json :=
  match readFirst? text.toList with
  | some (value, rest) => if (skipBlanks rest).isEmpty then some value else none
  | none => none

/-- The value that a text begins with; what follows it is not looked at. -/
def readLeading? (text : String) : Option Json :=
  (readFirst? text.toList).map Prod.fst

end Json

end GraphGateway
