import GraphGateway.Json
import GraphGateway.Settings.Entry
import GraphGateway.Text.Decimal

/-!
# Paths of settings

A setting is named by a path: the name of a section, then members after points
and items of lists in brackets. A negative position counts from the end of a
list. Placing an entry at a path makes the sections and lists on the way: a list
grows as far as it has to, and what is not of the kind that the path asks for
is replaced.
-/

namespace GraphGateway

namespace Settings

inductive PathStep where
  | name (s : String)
  | position (i : Int)
  deriving DecidableEq

abbrev Path :=
  List PathStep

namespace Path

/-! ## Reading -/

def isNameChar (c : Char) : Bool :=
  c.isAlphanum || c == '_' || c == '-' || c == ' '

def readName? (cs : List Char) : Option (PathStep × List Char) :=
  let name := cs.takeWhile isNameChar
  if name.isEmpty then none else some (.name (String.ofList name), cs.dropWhile isNameChar)

def skipSpaces (cs : List Char) : List Char :=
  cs.dropWhile fun c => c == ' ' || c == '\t'

def position? (negative : Bool) (digits : List Char) : Option Int :=
  match Text.natural? digits with
  | none => none
  | some n =>
      let i : Int := if negative then -n else n
      if Json.fitsInt64 i then some i else none

/-- A position up to its closing bracket, with spaces around it, and what follows it. -/
def readPosition? (cs : List Char) : Option (PathStep × List Char) :=
  let start := skipSpaces cs
  let (negative, rest) :=
    match start with
    | '-' :: more => (true, more)
    | other => (false, other)
  let (digits, tail) := Text.spanDigits rest
  match position? negative digits, skipSpaces tail with
  | some i, ']' :: next => some (.position i, next)
  | _, _ => none

def readSteps? : Nat → List Char → Option Path
  | _, [] => some []
  | 0, _ => none
  | fuel + 1, '.' :: rest =>
      match readName? rest with
      | some (step, tail) => (readSteps? fuel tail).map (step :: ·)
      | none => none
  | fuel + 1, '[' :: rest =>
      match readPosition? rest with
      | some (step, tail) => (readSteps? fuel tail).map (step :: ·)
      | none => none
  | _ + 1, _ => none

def read? (cs : List Char) : Option Path :=
  match readName? cs with
  | some (step, tail) => (readSteps? tail.length tail).map (step :: ·)
  | none => none

/-- The path of a key; what is no path is a name as it stands. -/
def ofKey (key : String) : Path :=
  (read? key.toList).getD [.name key]

end Path

/-! ## Placing -/

def itemsOf : Entry → List Entry
  | .list items => items
  | _ => []

/-- Items with the one at a position changed; missing items are nothing. -/
def changeItem (change : Entry → Entry) (i : Int) (items : List Entry) : List Entry :=
  let missing (n : Nat) : List Entry := List.replicate n .nothing
  if 0 ≤ i then
    let n := i.toNat
    (items ++ missing (n + 1 - items.length)).modify n change
  else
    let n := i.natAbs
    let grown := missing (n - items.length) ++ items
    grown.modify (grown.length - n) change

/-- Place an entry at a path. At a name, which is folded, it is laid over what is there; the names
on the way are taken as they stand. -/
def place (e : Entry) : Path → Entry → Entry
  | [], _ => e
  | [.name s], lower => lower.overlay (.table (.ofList [(s, e)]))
  | [.position i], lower => .list (changeItem (fun _ => e) i (itemsOf lower))
  | .name s :: rest, lower =>
      let here := (lower.entries.get? s).getD .nothing
      .table (lower.entries.insert s (place e rest here))
  | .position i :: rest, lower => .list (changeItem (place e rest) i (itemsOf lower))

end Settings

end GraphGateway
