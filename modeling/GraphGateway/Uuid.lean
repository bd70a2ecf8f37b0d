import GraphGateway.Text.Hexadecimal

/-!
# Universally unique identifiers

An identifier is a row of 32 hexadecimal digits. It is written in lower case
with hyphens after 8, 12, 16 and 20 digits, and read with or without hyphens, in
braces, or as a uniform resource name.
-/

namespace GraphGateway

/-- A row of 32 hexadecimal digits. -/
structure Uuid where
  digits : List (Fin 16)
  length_eq : digits.length = 32
  deriving DecidableEq

namespace Uuid

def digitChar (d : Fin 16) : Char :=
  Nat.digitChar d.val

def hyphenated (u : Uuid) : List Char :=
  let cs := u.digits.map digitChar
  cs.take 8 ++ '-' :: ((cs.drop 8).take 4 ++ '-' :: ((cs.drop 12).take 4 ++
    '-' :: ((cs.drop 16).take 4 ++ '-' :: cs.drop 20)))

def text (u : Uuid) : String :=
  String.ofList u.hyphenated

def readPlain? (cs : List Char) : Option Uuid :=
  match Text.hexDigits? cs with
  | some ds => if h : ds.length = 32 then some ⟨ds, h⟩ else none
  | none => none

def readHyphenated? (cs : List Char) : Option Uuid :=
  if cs.length = 36 ∧ cs[8]? = some '-' ∧ cs[13]? = some '-' ∧ cs[18]? = some '-' ∧
      cs[23]? = some '-' then
    readPlain? (cs.take 8 ++ (cs.drop 9).take 4 ++ (cs.drop 14).take 4 ++ (cs.drop 19).take 4 ++
      cs.drop 24)
  else none

/-- The opening of a uniform resource name, in any letter case. -/
def isNameLead (cs : List Char) : Bool :=
  cs.map Char.toLower == ['u', 'r', 'n', ':', 'u', 'u', 'i', 'd', ':']

/-- The identifier written by a text; the form follows from the length. -/
def read? (s : String) : Option Uuid :=
  let cs := s.toList
  match cs.length with
  | 32 => readPlain? cs
  | 36 => readHyphenated? cs
  | 38 =>
      if cs.head? = some '\x7b' ∧ cs[37]? = some '\x7d' then readHyphenated? ((cs.drop 1).take 36)
      else none
  | 45 => if isNameLead (cs.take 9) then readHyphenated? (cs.drop 9) else none
  | _ => none

end Uuid

end GraphGateway
