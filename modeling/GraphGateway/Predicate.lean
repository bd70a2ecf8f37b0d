import GraphGateway.Value.Order

/-!
# Predicates

Tests on the value of a property: relations with another value, membership in a
list, and places of one text inside another. Values that cannot be compared
never satisfy an ordering, and only strings satisfy a text predicate, negated or
not.
-/

namespace GraphGateway

inductive Relation where
  | eq
  | neq
  | lt
  | lte
  | gt
  | gte
  deriving DecidableEq

inductive TextPlace where
  | start
  | finish
  | anywhere
  deriving DecidableEq

inductive Predicate where
  | relation (r : Relation) (value : Value)
  | within (values : List Value)
  | without (values : List Value)
  | text (negated : Bool) (place : TextPlace) (pattern : String)

namespace Relation

def name : Relation → String
  | eq => "eq"
  | neq => "neq"
  | lt => "lt"
  | lte => "lte"
  | gt => "gt"
  | gte => "gte"

def ofName? (s : String) : Option Relation :=
  [eq, neq, lt, lte, gt, gte].find? fun r => r.name == s

@[simp] theorem ofName?_name (r : Relation) : ofName? r.name = some r := by
  cases r <;> rfl

def holds (r : Relation) (subject object : Value) : Bool :=
  match r with
  | eq => subject.looseEq object
  | neq => !subject.looseEq object
  | lt => subject.compare? object == some .lt
  | lte => (subject.compare? object).any fun o => o == .lt || o == .eq
  | gt => subject.compare? object == some .gt
  | gte => (subject.compare? object).any fun o => o == .gt || o == .eq

end Relation

namespace TextPlace

/-- Whether `pattern` occurs at the front of some suffix of `text`. -/
def occursIn (pattern : List Char) : List Char → Bool
  | [] => pattern.isEmpty
  | c :: rest => pattern.isPrefixOf (c :: rest) || occursIn pattern rest

def holds (place : TextPlace) (text pattern : List Char) : Bool :=
  match place with
  | start => pattern.isPrefixOf text
  | finish => pattern.isSuffixOf text
  | anywhere => occursIn pattern text

end TextPlace

namespace Predicate

def name : Predicate → String
  | relation r _ => r.name
  | within _ => "within"
  | without _ => "without"
  | text false .start _ => "startingWith"
  | text true .start _ => "notStartingWith"
  | text false .finish _ => "endingWith"
  | text true .finish _ => "notEndingWith"
  | text false .anywhere _ => "containing"
  | text true .anywhere _ => "notContaining"

def isText : Predicate → Bool
  | text .. => true
  | _ => false

def accepts (p : Predicate) (v : Value) : Bool :=
  match p with
  | relation r object => r.holds v object
  | within values => values.any fun candidate => v.looseEq candidate
  | without values => !values.any fun candidate => v.looseEq candidate
  | text negated place pattern =>
      v.asString?.any fun s => place.holds s.toList pattern.toList != negated

end Predicate

end GraphGateway
