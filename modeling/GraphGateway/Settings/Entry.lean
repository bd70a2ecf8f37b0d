import GraphGateway.Binary64.Layout
import GraphGateway.OrderedMap

/-!
# Configuration entries

What a source of settings holds under a name: a scalar, a list, or a table of
further entries. Tables are laid over each other entry by entry, and everything
else replaces what was there. Scalars convert freely: a number or a truth value
may be written as text, and the other way round.
-/

namespace GraphGateway

inductive Entry where
  /-- The item of a list that was never given. -/
  | nothing
  | text (s : String)
  | flag (b : Bool)
  | whole (n : Int)
  | number (x : Binary64)
  | list (items : List Entry)
  | table (entries : OrderedMap String Entry)

abbrev Table :=
  OrderedMap String Entry

namespace Entry

/-! ## Letter case -/

/-- A character in lower case, where ASCII has one for it; the Kelvin sign is a letter K. -/
def lowerChar (c : Char) : Char :=
  if c = '\u212a' then 'k' else c.toLower

/-- A name or a word without regard to letter case. -/
def folded (s : String) : String :=
  String.ofList (s.toList.map lowerChar)

/-! ## Layers -/

def entries : Entry → Table
  | table entries => entries
  | _ => .empty

mutual

/-- Lay an entry over `lower`: a table entry by entry, anything else in its place. -/
def overlay (lower : Entry) : Entry → Entry
  | .table ⟨entries⟩ => overlayAll lower entries
  | scalar => scalar

/-- Lay named entries over an entry, one after another; their names are folded. -/
def overlayAll (lower : Entry) : List (String × Entry) → Entry
  | [] => lower
  | (name, e) :: rest =>
      let key := folded name
      let here := (lower.entries.get? key).getD (.table .empty)
      overlayAll (.table (lower.entries.insert key (overlay here e))) rest

end

/-- The member of a section: by name in a table, by position in a list. -/
def member? (position : Nat) (name : String) : Entry → Option Entry
  | table entries => entries.get? name
  | list items => items[position]?
  | _ => none

/-! ## Scalars -/

def truth? (s : String) : Option Bool :=
  let word := folded s
  if word = "true" ∨ word = "on" ∨ word = "yes" then some true
  else if word = "false" ∨ word = "off" ∨ word = "no" then some false
  else none

/-- The number written by digits with an optional plus sign. -/
def digits? : List Char → Option Nat
  | '+' :: rest => Text.natural? rest
  | cs => Text.natural? cs

/-- The integer nearest to a magnitude; a tie goes away from zero. -/
def rounded (x : Binary64.Finite) : Nat :=
  let scale := x.exponent
  if 0 ≤ scale then x.significand * Nat.pow 2 scale.toNat
  else (2 * x.significand + Nat.pow 2 (-scale).toNat) / Nat.pow 2 ((-scale).toNat + 1)

def greatest : Nat :=
  UInt64.size - 1

/-- The unsigned integer of 64 bits that is nearest to a number, zero for what is not a number. -/
def clamped : Binary64 → Nat
  | .nan => 0
  | .infinite negative => if negative then 0 else greatest
  | .finite x => if x.negative then 0 else min (rounded x) greatest

def asNat? : Entry → Option Nat
  | text s =>
      match truth? s with
      | some b => some b.toNat
      | none => digits? s.toList
  | flag b => some b.toNat
  | whole n => if 0 ≤ n then some n.toNat else none
  | number x => some (clamped x)
  | _ => none

def asBool? : Entry → Option Bool
  | text s => if s = "1" then some true else if s = "0" then some false else truth? s
  | flag b => some b
  | whole n => some (decide (n ≠ 0))
  | number x => some !(x.numericEq (.ofInt 0))
  | _ => none

/-- Numbers are written positionally throughout, whole ones without a point. -/
def numberStyle : Binary64.FloatStyle where
  leastPositional := none
  firstScientific := none
  plusSign := false
  keepsPoint := false
  tie := .upward

def asText? : Entry → Option String
  | text s => some s
  | flag b => some (if b then "true" else "false")
  | whole n => some (Text.wholeText n)
  | number x => some (String.ofList (x.text numberStyle))
  | _ => none

/-- The word that chooses among alternatives: a text, or the only name of a table. -/
def asChoice? : Entry → Option String
  | text s => some s
  | table entries =>
      match entries.keys with
      | [name] => some name
      | _ => none
  | _ => none

end Entry

end GraphGateway
