import GraphGateway.Toml.Moment
import GraphGateway.Toml.Scalar

/-!
# TOML

The configuration format: lines of keys and values, grouped under headers that
name tables. A name may be bound once only, and a table may be opened by a
header once only; tables that a longer path merely passes through may still be
opened later. Dotted keys bind in tables of their own making, which may lie
under tables that headers passed through. Values inside brackets and braces are
closed. Keys have at most 79 parts, and brackets and braces nest at most 79 deep.
-/

namespace GraphGateway

namespace Toml

/-! ## Trees -/

inductive Origin where
  /-- Between braces; it is closed. -/
  | braced
  /-- By a header that passes through it. -/
  | passed
  /-- By a header of its own. -/
  | opened
  /-- By a dotted key. -/
  | dotted
  deriving DecidableEq

/-- What a name is bound to while a document is read. -/
inductive Node where
  | scalar (e : Entry)
  | moment (text : String)
  | list (items : List Node)
  | table (origin : Origin) (members : OrderedMap String Node)
  | tables (items : List Node)

abbrev Members :=
  OrderedMap String Node

/-- The name under which a table holds the date that it stands for. -/
def momentName : String :=
  "$__toml_private_datetime"

/-- What a table holds when its first name says that it stands for a date. -/
def heldNode? : List (String × Node) → Option Node
  | (name, node) :: _ => if name = momentName then some node else none
  | [] => none

/-- The date that a held node gives; only strings do. -/
def Node.heldMeaning? : Node → Option Entry
  | .scalar (.text s) => (heldMoment? s).map .text
  | _ => none

mutual

/-- The entry that a node stands for; a table that should hold a date and does not has none. -/
def Node.meaning? : Node → Option Entry
  | .scalar e => some e
  | .moment text => some (.text text)
  | .list items => (itemsOf? items).map .list
  | .tables items => (itemsOf? items).map .list
  | .table _ ⟨members⟩ =>
      match heldNode? members with
      | some held => held.heldMeaning?
      | none => (entriesOf? members).map fun entries => .table ⟨entries⟩

def entriesOf? : List (String × Node) → Option (List (String × Entry))
  | [] => some []
  | (name, node) :: rest =>
      match node.meaning? with
      | none => none
      | some e => (entriesOf? rest).map ((name, e) :: ·)

def itemsOf? : List Node → Option (List Entry)
  | [] => some []
  | node :: rest =>
      match node.meaning? with
      | none => none
      | some e => (itemsOf? rest).map (e :: ·)

end

/-! ## Keys and headers -/

/-- Whether a dotted key may go through a table, or end in it when `last` holds. -/
def Origin.admitsKey (o : Origin) (last : Bool) : Bool :=
  o == .dotted || (!last && o == .passed)

/-- Bind a dotted key that was not bound before to a node; in a row of tables the last counts. -/
def assign (node : Node) : List String → Members → Option Members
  | [], _ => none
  | [name], members => if members.contains name then none else some (members.insert name node)
  | name :: next :: rest, members =>
      match members.get? name with
      | none => (assign node (next :: rest) .empty).map fun inner =>
          members.insert name (.table .dotted inner)
      | some (.table origin inner) =>
          if origin.admitsKey rest.isEmpty then
            (assign node (next :: rest) inner).map fun changed =>
              members.insert name (.table origin changed)
          else none
      | some (.tables items) =>
          match items.getLast? with
          | some (.table origin inner) =>
              if rest.isEmpty then none
              else
                (assign node (next :: rest) inner).map fun changed =>
                  members.insert name (.tables (items.dropLast ++ [.table origin changed]))
          | _ => none
      | _ => none

/-- A change of members that concerns one name. -/
abbrev Change :=
  String → Members → Option Members

/-- Change the table that a header path leads to; in a row of tables the last one counts. -/
def alter (change : Change) : List String → Members → Option Members
  | [], _ => none
  | [name], members => change name members
  | name :: next :: rest, members =>
      match members.get? name with
      | none => (alter change (next :: rest) .empty).map fun inner =>
          members.insert name (.table .passed inner)
      | some (.table .braced _) => none
      | some (.table origin inner) => (alter change (next :: rest) inner).map fun changed =>
          members.insert name (.table origin changed)
      | some (.tables items) =>
          match items.getLast? with
          | some (.table origin inner) => (alter change (next :: rest) inner).map fun changed =>
              members.insert name (.tables (items.dropLast ++ [.table origin changed]))
          | _ => none
      | some _ => none

/-- Open a table by a header of its own; one that was passed through moves to the end. -/
def opened : Change := fun name members =>
  match members.get? name with
  | none => some (members.insert name (.table .opened .empty))
  | some (.table .passed inner) => some ((members.erase name).insert name (.table .opened inner))
  | some _ => none

def appended : Change := fun name members =>
  match members.get? name with
  | none => some (members.insert name (.tables [.table .opened .empty]))
  | some (.tables items) => some (members.insert name (.tables (items ++ [.table .opened .empty])))
  | some _ => none

def assigned (node : Node) (key : List String) : Change := fun name members =>
  match members.get? name with
  | some (.table origin inner) => (assign node key inner).map fun changed =>
      members.insert name (.table origin changed)
  | some (.tables items) =>
      match items.getLast? with
      | some (.table origin inner) => (assign node key inner).map fun changed =>
          members.insert name (.tables (items.dropLast ++ [.table origin changed]))
      | _ => none
  | _ => none

def assignUnder (header key : List String) (node : Node) (members : Members) : Option Members :=
  if header.isEmpty then assign node key members
  else alter (assigned node key) header members

/-! ## Values -/

/-- How many parts a key may have, and how deep brackets and braces may nest. -/
def nestingLimit : Nat :=
  79

def isBare (c : Char) : Bool :=
  c.isAlphanum || c == '_' || c == '-'

/-- One part of a key: bare, or a string on one line. -/
def readName? (cs : List Char) : Option (String × List Char) :=
  let bare := cs.takeWhile isBare
  if bare.isEmpty then readLineString? cs
  else some (String.ofList bare, cs.dropWhile isBare)

/-- The parts of a key, joined by points, with spaces around them. -/
def readNames : Nat → List Char → Option (List String × List Char)
  | 0, _ => none
  | fuel + 1, cs =>
      match readName? (skipSpaces cs) with
      | none => none
      | some (name, rest) =>
          match skipSpaces rest with
          | '.' :: more => (readNames fuel more).map fun (names, tail) => (name :: names, tail)
          | tail => some ([name], tail)

def readKey? (cs : List Char) : Option (List String × List Char) :=
  (readNames (cs.length + 1) cs).filter fun (names, _) => decide (names.length ≤ nestingLimit)

/-- A date or another scalar outside of quotes, and what follows it. -/
def readBareValue? (cs : List Char) : Option (Node × List Char) :=
  match readMoment? cs with
  | some (text, tail) => some (.moment text, tail)
  | none => (readWord? cs).map fun (e, tail) => (.scalar e, tail)

mutual

/-- One value, with room for `room` more levels of nesting. -/
def readValue (fuel room : Nat) (cs : List Char) : Option (Node × List Char) :=
  match fuel with
  | 0 => none
  | fuel + 1 =>
      match cs with
      | '[' :: rest =>
          if room = 0 then none
          else (readItems fuel (room - 1) rest).map fun (items, tail) => (.list items, tail)
      | '\x7b' :: rest =>
          if room = 0 then none
          else
            match skipSpaces rest with
            | '\x7d' :: tail => some (.table .braced .empty, tail)
            | other =>
                (readMembers fuel (room - 1) .empty other).map fun (members, tail) =>
                  (.table .braced members, tail)
      | '"' :: _ | '\'' :: _ => (readString? cs).map fun (s, tail) => (.scalar (.text s), tail)
      | _ => readBareValue? cs

/-- The items of a list up to its closing bracket, which a comma may precede. -/
def readItems (fuel room : Nat) (cs : List Char) : Option (List Node × List Char) :=
  match fuel with
  | 0 => none
  | fuel + 1 =>
      match skipLines (cs.length + 1) cs with
      | ']' :: tail => some ([], tail)
      | start =>
          match readValue fuel room start with
          | none => none
          | some (item, rest) =>
              match skipLines (rest.length + 1) rest with
              | ',' :: more =>
                  (readItems fuel room more).map fun (items, tail) => (item :: items, tail)
              | ']' :: tail => some ([item], tail)
              | _ => none

def readMembers (fuel room : Nat) (members : Members) (cs : List Char) :
    Option (Members × List Char) :=
  match fuel with
  | 0 => none
  | fuel + 1 =>
      match readBinding fuel room members cs with
      | none => none
      | some (extended, rest) =>
          match skipSpaces rest with
          | ',' :: more => readMembers fuel room extended more
          | '\x7d' :: tail => some (extended, tail)
          | _ => none

def readBinding (fuel room : Nat) (members : Members) (cs : List Char) :
    Option (Members × List Char) :=
  match fuel with
  | 0 => none
  | fuel + 1 =>
      match readKey? cs with
      | some (key, '=' :: rest) =>
          match readValue fuel room (skipSpaces rest) with
          | none => none
          | some (node, tail) => (assign node key members).map fun extended => (extended, tail)
      | _ => none

end

/-! ## Documents -/

/-- The header path of a line after its opening brackets, and what follows the line. -/
def readHeader? (closing cs : List Char) : Option (List String × List Char) := do
  let (path, rest) ← readKey? cs
  let tail ← Text.strip? closing rest
  let next ← endLine? tail
  some (path, next)

def readAssignment? (cs : List Char) : Option (List String × Node × List Char) := do
  let (key, rest) ← readKey? cs
  let written ← Text.strip? ['='] rest
  let (node, tail) ← readValue (4 * written.length + 4) nestingLimit (skipSpaces written)
  let next ← endLine? tail
  some (key, node, next)

def readLines : Nat → List String → Members → List Char → Option Members
  | 0, _, _, _ => none
  | fuel + 1, header, members, cs =>
      match skipSpaces cs with
      | [] => some members
      | '[' :: '[' :: rest =>
          match readHeader? [']', ']'] rest with
          | none => none
          | some (path, next) =>
              match alter appended path members with
              | none => none
              | some changed => readLines fuel path changed next
      | '[' :: rest =>
          match readHeader? [']'] rest with
          | none => none
          | some (path, next) =>
              match alter opened path members with
              | none => none
              | some changed => readLines fuel path changed next
      | start =>
          match endLine? start with
          | some next => readLines fuel header members next
          | none =>
              match readAssignment? start with
              | none => none
              | some (key, node, next) =>
                  match assignUnder header key node members with
                  | none => none
                  | some changed => readLines fuel header changed next

/-- What follows the mark that may open a document. -/
def skipMark : List Char → List Char
  | '\ufeff' :: rest => rest
  | cs => cs

def read? (text : String) : Option Table :=
  let cs := skipMark text.toList
  match (readLines (cs.length + 1) [] .empty cs).bind fun members =>
      (Node.table .opened members).meaning? with
  | some (.table entries) => some entries
  | _ => none

end Toml

end GraphGateway
