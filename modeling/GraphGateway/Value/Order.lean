import GraphGateway.Value

/-!
# Equality and order of values

Two equalities and one partial order. Strict equality compares values of one
kind, with numeric equality for floats. Loose equality also identifies an integer with a
float of the same number and an identifier with its text. The order compares
values of one kind, and integers with floats; everything else is incomparable.
-/

namespace GraphGateway

namespace Value

mutual

/-- Equality of values of one kind; a float that is not a number equals nothing. -/
def same : Value → Value → Bool
  | .null, .null => true
  | .bool a, .bool b => decide (a = b)
  | .int a, .int b => decide (a = b)
  | .float a, .float b => a.numericEq b
  | .string a, .string b => decide (a = b)
  | .date a, .date b => decide (a = b)
  | .uuid a, .uuid b => decide (a = b)
  | .list as, .list bs => sameItems as bs
  | .map ⟨as⟩, .map ⟨bs⟩ => sameEntries as bs
  | .vertex a, .vertex b => decide (a = b)
  | .edge a, .edge b => decide (a = b)
  | .token a, .token b => decide (a = b)
  | _, _ => false

def sameItems : List Value → List Value → Bool
  | [], [] => true
  | a :: as, b :: bs => same a b && sameItems as bs
  | _, _ => false

/-- Equality entry by entry, in order. -/
def sameEntries : List (Key × Value) → List (Key × Value) → Bool
  | [], [] => true
  | (k, a) :: as, (l, b) :: bs => decide (k = l) && same a b && sameEntries as bs
  | _, _ => false

end

/-- Equality that also identifies integers with floats and identifiers with their text. -/
def looseEq : Value → Value → Bool
  | .int a, .float b => (Binary64.ofInt a.toInt).numericEq b
  | .float a, .int b => (Binary64.ofInt b.toInt).numericEq a
  | .uuid a, .string b => decide (a.text = b)
  | .string a, .uuid b => decide (b.text = a)
  | a, b => same a b

def utf8 (s : String) : List UInt8 :=
  s.toByteArray.data.toList

def compareBytes : List UInt8 → List UInt8 → Ordering
  | [], [] => .eq
  | [], _ :: _ => .lt
  | _ :: _, [] => .gt
  | a :: as, b :: bs => (compare a.toNat b.toNat).then (compareBytes as bs)

/-- The order used by relational predicates; `none` for incomparable values. -/
def compare? : Value → Value → Option Ordering
  | .int a, .int b => some (compare a.toInt b.toInt)
  | .float a, .float b => a.compare? b
  | .int a, .float b => (Binary64.ofInt a.toInt).compare? b
  | .float a, .int b => a.compare? (Binary64.ofInt b.toInt)
  | .string a, .string b => some (compareBytes (utf8 a) (utf8 b))
  | .date a, .date b => some (a.order b)
  | .bool a, .bool b => some (compare a.toNat b.toNat)
  | _, _ => none

end Value

end GraphGateway
