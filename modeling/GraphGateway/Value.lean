import GraphGateway.OrderedMap
import GraphGateway.Binary64
import GraphGateway.Timestamp
import GraphGateway.Uuid
import GraphGateway.Text.Decimal

/-!
# Graph values

What a property holds, a traverser carries and a query returns: scalars, lists,
maps, references to vertices and edges, and the reserved tokens that name the
system keys of an element.
-/

namespace GraphGateway

inductive Token where
  | id
  | label
  | key
  | value
  deriving DecidableEq

namespace Token

def name : Token → String
  | id => "id"
  | label => "label"
  | key => "key"
  | value => "value"

def ofName? (s : String) : Option Token :=
  if s = "id" then some id
  else if s = "label" then some label
  else if s = "key" then some key
  else if s = "value" then some value
  else none

@[simp] theorem ofName?_name (t : Token) : ofName? t.name = some t := by
  cases t <;> rfl

end Token

/-- A key of a map: a token or a property name, which stay apart even when they read alike. -/
inductive Key where
  | token (t : Token)
  | name (s : String)
  deriving DecidableEq

inductive ElementId where
  | int (n : Int64)
  | text (s : String)
  | uuid (u : Uuid)
  deriving DecidableEq

namespace ElementId

/-- The text of an identifier; different identifiers may share it. -/
def display : ElementId → String
  | int n => Text.wholeText n.toInt
  | text s => s
  | uuid u => u.text

end ElementId

structure Vertex where
  id : ElementId
  label : String
  deriving DecidableEq

/-- A reference to an edge that leads from `source` to `target`. -/
structure Edge where
  id : ElementId
  label : String
  source : ElementId
  target : ElementId
  deriving DecidableEq

inductive Value where
  | null
  | bool (b : Bool)
  | int (n : Int64)
  | float (x : Binary64)
  | string (s : String)
  | date (t : Timestamp)
  | uuid (u : Uuid)
  | list (items : List Value)
  | map (entries : OrderedMap Key Value)
  | vertex (v : Vertex)
  | edge (e : Edge)
  | token (t : Token)

abbrev Record :=
  OrderedMap Key Value

/-- Whether a key is the given property name; a token never is, even when it reads alike. -/
def Key.isName (name : String) : Key → Bool
  | .name s => s == name
  | .token _ => false

def Record.named? (r : Record) (name : String) : Option Value :=
  (r.entries.find? fun (key, _) => key.isName name).map Prod.snd

def ElementId.toValue : ElementId → Value
  | .int n => .int n
  | .text s => .string s
  | .uuid u => .uuid u

namespace Value

def typeName : Value → String
  | null => "null"
  | bool _ => "bool"
  | int _ => "int"
  | float _ => "float"
  | string _ => "string"
  | date _ => "date"
  | uuid _ => "uuid"
  | list _ => "list"
  | map _ => "map"
  | vertex _ => "vertex"
  | edge _ => "edge"
  | token _ => "token"

def asString? : Value → Option String
  | string s => some s
  | _ => none

def asInt? : Value → Option Int64
  | int n => some n
  | _ => none

def asId? : Value → Option ElementId
  | int n => some (.int n)
  | string s => some (.text s)
  | uuid u => some (.uuid u)
  | _ => none

@[simp] theorem asId?_toValue (id : ElementId) : id.toValue.asId? = some id := by
  cases id <;> rfl

end Value

/-- Whether a value names an element: as its identifier, or by the same text. -/
def ElementId.matchesValue (id : ElementId) (v : Value) : Bool :=
  match v.asId? with
  | some other => decide (id = other) || decide (id.display = other.display)
  | none => false

end GraphGateway
