import GraphGateway.Value
import GraphGateway.Json
import GraphGateway.Timestamp.Iso

/-!
# Values as JSON

Every value has a plain JSON form: moments become ISO 8601 text, elements
become objects of their identity, and numbers that JSON cannot hold become
`null`. In the other direction every document is a value; whole numbers that do
not fit 64 bits with sign become floats.
-/

namespace GraphGateway

def Key.plainName : Key → String
  | .token t => t.name
  | .name s => s

def ElementId.toJson : ElementId → Json
  | .int n => .ofInt64 n
  | .text s => .string s
  | .uuid u => .string u.text

namespace Value

mutual

def toJson : Value → Json
  | .null => .null
  | .bool b => .bool b
  | .int n => .ofInt64 n
  | .float (.finite x) => .float x
  | .float _ => .null
  | .string s => .string s
  | .date t => .string t.isoText
  | .uuid u => .string u.text
  | .list items => .array (toJsonItems items)
  | .map ⟨entries⟩ => .ofFields (toJsonEntries entries)
  | .vertex v => .ofFields [("id", v.id.toJson), ("label", .string v.label)]
  | .edge e =>
      .ofFields [("id", e.id.toJson), ("label", .string e.label), ("outV", e.source.toJson),
        ("inV", e.target.toJson)]
  | .token t => .string t.name

def toJsonItems : List Value → List Json
  | [] => []
  | item :: rest => toJson item :: toJsonItems rest

/-- The fields that map entries become, before fields of one name are merged. -/
def toJsonEntries : List (Key × Value) → List (String × Json)
  | [] => []
  | (key, value) :: rest => (key.plainName, toJson value) :: toJsonEntries rest

end

def ofWhole (n : Int) : Value :=
  if Json.fitsInt64 n then .int (Int64.ofInt n) else .float (Binary64.ofInt n)

mutual

/-- The value of a document; objects become maps keyed by property names. -/
def ofJson : Json → Value
  | .null => .null
  | .bool b => .bool b
  | .int n => ofWhole n
  | .float x => .float (.finite x)
  | .string s => .string s
  | .array items => .list (ofJsonItems items)
  | .object ⟨fields⟩ => .map (.ofList (ofJsonFields fields))

def ofJsonItems : List Json → List Value
  | [] => []
  | item :: rest => ofJson item :: ofJsonItems rest

def ofJsonFields : List (String × Json) → List (Key × Value)
  | [] => []
  | (name, value) :: rest => (.name name, ofJson value) :: ofJsonFields rest

end

end Value

end GraphGateway
