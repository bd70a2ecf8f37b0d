/-!
# Hexadecimal digits

Reading digits of base sixteen, in either letter case.
-/

namespace GraphGateway

namespace Text

def hexDigit? (c : Char) : Option (Fin 16) :=
  if '0' ≤ c ∧ c ≤ '9' then some (Fin.ofNat 16 (c.toNat - 48))
  else if 'a' ≤ c ∧ c ≤ 'f' then some (Fin.ofNat 16 (c.toNat - 87))
  else if 'A' ≤ c ∧ c ≤ 'F' then some (Fin.ofNat 16 (c.toNat - 55))
  else none

def hexDigits? : List Char → Option (List (Fin 16))
  | [] => some []
  | c :: rest =>
      match hexDigit? c, hexDigits? rest with
      | some d, some ds => some (d :: ds)
      | _, _ => none

/-- The number written by `width` hexadecimal digits at the front of a text, and what follows. -/
def takeHex? (width : Nat) (cs : List Char) : Option (Nat × List Char) :=
  match hexDigits? (cs.take width) with
  | none => none
  | some ds =>
      if ds.length = width then some (ds.foldl (fun n d => n * 16 + d.val) 0, cs.drop width)
      else none

end Text

end GraphGateway
