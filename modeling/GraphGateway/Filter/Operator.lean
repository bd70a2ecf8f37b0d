import GraphGateway.Predicate
import GraphGateway.Value.Json
import GraphGateway.Json.Printer
import GraphGateway.Timestamp.Reader

/-!
# Filter operators

What a client may write in a filter: the kinds of scalar fields, the operators
each kind accepts under which names, and how a JSON comparison value becomes a
value of the kind and then a predicate.
-/

namespace GraphGateway

namespace Filter

inductive Kind where
  | id
  | string
  | int
  | float
  | boolean
  | datetime
  | enumeration
  deriving DecidableEq

inductive Operator where
  | relation (r : Relation)
  | member
  | notMember
  | text (negated : Bool) (place : TextPlace)
  deriving DecidableEq

inductive Wanted where
  | idValue
  | string
  | integer
  | number
  | boolean
  | timestamp
  | list
  deriving DecidableEq

inductive Misfit where
  | idOutOfRange (n : Int)
  | unexpected (wanted : Wanted) (found : Json)
  | notATimestamp (text : String)

def Kind.name : Kind → String
  | id => "id"
  | string => "string"
  | int => "int"
  | float => "float"
  | boolean => "boolean"
  | datetime => "datetime"
  | enumeration => "enum"

def Kind.ofName? (s : String) : Option Kind :=
  [id, string, int, float, boolean, datetime, enumeration].find? fun k => k.name == s

@[simp] theorem Kind.ofName?_name (k : Kind) : Kind.ofName? k.name = some k := by
  cases k <;> rfl

def Wanted.name : Wanted → String
  | idValue => "a string or integer id"
  | string => "a string"
  | integer => "an integer"
  | number => "a number"
  | boolean => "a boolean"
  | timestamp => "an ISO-8601 timestamp string"
  | list => "a list"

def Misfit.message : Misfit → String
  | idOutOfRange n => "id " ++ Text.wholeText n ++ " is out of range"
  | unexpected wanted found => "expected " ++ wanted.name ++ ", got " ++ found.text
  | notATimestamp text => "`" ++ text ++ "` is not an ISO-8601 timestamp"

/-! ## Catalogues -/

/-- Operators under the names that clients use. -/
abbrev Catalogue :=
  List (String × Operator)

def equalityOperators : Catalogue :=
  [("eq", .relation .eq), ("ne", .relation .neq)]

def orderOperators : Catalogue :=
  [("lt", .relation .lt), ("le", .relation .lte), ("gt", .relation .gt), ("ge", .relation .gte)]

def memberOperators : Catalogue :=
  [("in", .member), ("not_in", .notMember)]

def textOperators : Catalogue :=
  [("contains", .text false .anywhere), ("not_contains", .text true .anywhere),
    ("begins_with", .text false .start), ("not_begins_with", .text true .start),
    ("ends_with", .text false .finish), ("not_ends_with", .text true .finish)]

/-- The operators of a kind; enumerations know `ne` under a second name. -/
def Kind.operators : Kind → Catalogue
  | id => equalityOperators ++ memberOperators
  | string => equalityOperators ++ memberOperators ++ textOperators
  | int | float | datetime => equalityOperators ++ orderOperators ++ memberOperators
  | boolean => equalityOperators
  | enumeration => equalityOperators ++ [("neq", .relation .neq)] ++ memberOperators

/-- Every operator, and `ge` under a second name, for fields without a kind. -/
def untypedOperators : Catalogue :=
  equalityOperators ++ orderOperators ++ [("gte", .relation .gte)] ++ memberOperators ++
    textOperators

def Catalogue.find? (catalogue : Catalogue) (name : String) : Option Operator :=
  OrderedMap.lookup name catalogue

/-! ## Comparison values -/

def expect {α : Type} (wanted : Wanted) (found : Json) : Option α → Except Misfit α
  | some a => .ok a
  | none => .error (.unexpected wanted found)

def Kind.coerce (kind : Kind) (value : Json) : Except Misfit Value :=
  match kind with
  | id =>
      match value with
      | .string s => .ok (.string s)
      | .int n =>
          if Json.fitsInt64 n then .ok (.int (Int64.ofInt n)) else .error (.idOutOfRange n)
      | other => .error (.unexpected .idValue other)
  | string | enumeration => (expect .string value value.asString?).map .string
  | int => (expect .integer value value.asInt64?).map .int
  | float => (expect .number value value.asNumber?).map .float
  | boolean => (expect .boolean value value.asBool?).map .bool
  | datetime =>
      match value with
      | .string s =>
          match Timestamp.read? s with
          | some t => .ok (.date t)
          | none => .error (.notATimestamp s)
      | other => .error (.unexpected .timestamp other)

/-- Comparison values one after another; the first misfit counts. -/
def coerceEach (coerce : Json → Except Misfit Value) : List Json → Except Misfit (List Value)
  | [] => .ok []
  | item :: rest =>
      match coerce item with
      | .error e => .error e
      | .ok v => (coerceEach coerce rest).map (v :: ·)

namespace Operator

def isMembership : Operator → Bool
  | member | notMember => true
  | _ => false

def isText : Operator → Bool
  | text .. => true
  | _ => false

/-- The predicate of an operator and a comparison value; only texts escape the coercion. -/
def build (op : Operator) (value : Json) (coerce : Json → Except Misfit Value) :
    Except Misfit Predicate :=
  match op with
  | relation r => (coerce value).map (.relation r)
  | member => do
      let items ← expect .list value value.asArray?
      (coerceEach coerce items).map .within
  | notMember => do
      let items ← expect .list value value.asArray?
      (coerceEach coerce items).map .without
  | text negated place => (expect .string value value.asString?).map (.text negated place)

end Operator

end Filter

end GraphGateway
