import GraphGateway.OrderedMap
import GraphGateway.Binary64

/-!
# JSON documents

Values of the data format. Objects keep the order of their fields, numbers are
either whole or finite binary64 numbers, and the two kinds stay apart: `1` and
`1.0` are different documents.
-/

namespace GraphGateway

inductive Json where
  | null
  | bool (b : Bool)
  | int (n : Int)
  | float (x : Binary64.Finite)
  | string (s : String)
  | array (items : List Json)
  | object (fields : OrderedMap String Json)

abbrev Fields :=
  OrderedMap String Json

namespace Json

def leastInt : Int :=
  Int64.minValue.toInt

def greatestInt : Int :=
  Int64.maxValue.toInt

def fitsInt64 (n : Int) : Bool :=
  decide (leastInt ≤ n) && decide (n ≤ greatestInt)

def isNull : Json → Bool
  | null => true
  | _ => false

theorem eq_null_of_isNull {v : Json} (h : v.isNull = true) : v = null := by
  cases v with
  | null => rfl
  | _ => cases h

def asString? : Json → Option String
  | string s => some s
  | _ => none

def asArray? : Json → Option (List Json)
  | array items => some items
  | _ => none

def asObject? : Json → Option Fields
  | object fields => some fields
  | _ => none

def asBool? : Json → Option Bool
  | bool b => some b
  | _ => none

/-- The whole number of a value, when it is one that fits 64 bits with sign. -/
def asInt64? : Json → Option Int64
  | int n => if fitsInt64 n then some (Int64.ofInt n) else none
  | _ => none

def asNat? : Json → Option Nat
  | int n => if 0 ≤ n then some n.toNat else none
  | _ => none

def asNumber? : Json → Option Binary64
  | int n => some (Binary64.ofInt n)
  | float x => some (.finite x)
  | _ => none

def field? (j : Json) (name : String) : Option Json :=
  j.asObject?.bind fun fields => fields.get? name

def ofInt64 (n : Int64) : Json :=
  int n.toInt

def ofFields (bindings : List (String × Json)) : Json :=
  object (.ofList bindings)

end Json

end GraphGateway
