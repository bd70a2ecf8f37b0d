import GraphGateway.Value.Json
import GraphGateway.Json.Printer

/-!
# GraphSON

Reading the typed JSON in which graph servers answer. A typed value is an object
with a `@type` tag and a `@value` payload; other objects are maps of values that
are decoded in turn, and all other JSON is taken as it stands. A tag that is not
known adds nothing to its payload.
-/

namespace GraphGateway

namespace GraphSON

inductive DecodeError where
  | malformed (tag : String) (found : Json)
  | oddMap (size : Nat)
  | withoutId (tag : String)
  | unsupportedId (tag found : String)

def DecodeError.message : DecodeError → String
  | malformed tag found => "malformed " ++ tag ++ " value: " ++ found.text
  | oddMap size => "g:Map has an odd number of entries (" ++ Text.naturalText size ++ ")"
  | withoutId tag => tag ++ " without id"
  | unsupportedId tag found => tag ++ " id of unsupported type " ++ found

inductive Payload where
  | list
  | map
  | integer
  | float
  | date
  | uuid
  | token
  | vertex
  | edge
  | property
  deriving DecidableEq

def payloadOf? (tag : String) : Option Payload :=
  if tag = "g:List" ∨ tag = "g:Set" then some .list
  else if tag = "g:Map" then some .map
  else if tag = "g:Int32" ∨ tag = "g:Int64" then some .integer
  else if tag = "g:Float" ∨ tag = "g:Double" then some .float
  else if tag = "g:Date" ∨ tag = "g:Timestamp" then some .date
  else if tag = "g:UUID" then some .uuid
  else if tag = "g:T" then some .token
  else if tag = "g:Vertex" then some .vertex
  else if tag = "g:Edge" then some .edge
  else if tag = "g:VertexProperty" ∨ tag = "g:Property" then some .property
  else none

/-- The tag of an object that has a payload. -/
def tag? (fields : List (String × Json)) : Option String :=
  match OrderedMap.lookup "@type" fields, OrderedMap.lookup "@value" fields with
  | some (.string tag), some _ => some tag
  | _, _ => none

/-- A decoded value, or the payload that does not fit its tag. -/
def fit (tag : String) (found : Json) : Option Value → Except DecodeError Value
  | some v => .ok v
  | none => .error (.malformed tag found)

/-- The number of a float payload; three words stand for the numbers that JSON cannot hold. -/
def float? : Json → Option Value
  | .int n => some (.float (.ofInt n))
  | .float x => some (.float (.finite x))
  | .string s =>
      if s = "NaN" then some (.float .nan)
      else if s = "Infinity" then some (.float (.infinite false))
      else if s = "-Infinity" then some (.float (.infinite true))
      else none
  | _ => none

/-- The value of a payload that holds no further values. -/
def scalar? (payload : Payload) (found : Json) : Option Value :=
  match payload with
  | .integer => found.asInt64?.map .int
  | .float => float? found
  | .date => found.asInt64?.bind fun n => (Timestamp.ofMillis? n.toInt).map .date
  | .uuid => found.asString?.bind fun s => (Uuid.read? s).map .uuid
  | .token => found.asString?.bind fun s => (Token.ofName? s).map .token
  | _ => none

def label (fields : List (String × Json)) : String :=
  ((OrderedMap.lookup "label" fields).bind Json.asString?).getD "vertex"

def elementId (tag : String) : Option (Except DecodeError Value) → Except DecodeError ElementId
  | none => .error (.withoutId tag)
  | some (.error e) => .error e
  | some (.ok v) =>
      match v.asId? with
      | some id => .ok id
      | none => .error (.unsupportedId tag v.typeName)

/-- The map key a decoded value stands for; other values than tokens and strings are JSON text. -/
def mapKey : Value → Key
  | .token t => .token t
  | .string s => .name s
  | other => .name other.toJson.text

mutual

/-- Decode the payload of a tag, or any JSON when there is none. -/
def decodeAs (tag : Option (String × Payload)) : Json → Except DecodeError Value
  | .object ⟨fields⟩ =>
      match tag with
      | none =>
          match tag? fields with
          | some name => decodePayload ((payloadOf? name).map fun p => (name, p)) fields
          | none => (decodeFields fields).map fun entries => .map (.ofList entries)
      | some (name, .vertex) => do
          let id ← elementId name (decodeField "id" fields)
          .ok (.vertex ⟨id, label fields⟩)
      | some (name, .edge) => do
          let id ← elementId name (decodeField "id" fields)
          let source ← elementId name (decodeField "outV" fields)
          let target ← elementId name (decodeField "inV" fields)
          .ok (.edge ⟨id, label fields, source, target⟩)
      | some (_, .property) => (decodeField "value" fields).getD (.ok .null)
      | some (name, _) => .error (.malformed name (.object ⟨fields⟩))
  | .array items =>
      match tag with
      | none => .ok (Value.ofJson (.array items))
      | some (_, .list) => (decodeItems items).map .list
      | some (_, .map) =>
          if items.length % 2 = 0 then
            (decodePairs items).map fun entries => .map (.ofList entries)
          else .error (.oddMap items.length)
      | some (name, _) => .error (.malformed name (.array items))
  | other =>
      match tag with
      | none => .ok (Value.ofJson other)
      | some (name, payload) => fit name other (scalar? payload other)

/-- Decode the first `@value` among fields. -/
def decodePayload (tag : Option (String × Payload)) :
    List (String × Json) → Except DecodeError Value
  | [] => .ok .null
  | (name, value) :: rest =>
      if name = "@value" then decodeAs tag value else decodePayload tag rest

def decodeField (wanted : String) : List (String × Json) → Option (Except DecodeError Value)
  | [] => none
  | (name, value) :: rest =>
      if name = wanted then some (decodeAs none value) else decodeField wanted rest

def decodeFields : List (String × Json) → Except DecodeError (List (Key × Value))
  | [] => .ok []
  | (name, value) :: rest => do
      let v ← decodeAs none value
      let entries ← decodeFields rest
      .ok ((.name name, v) :: entries)

def decodeItems : List Json → Except DecodeError (List Value)
  | [] => .ok []
  | item :: rest => do
      let v ← decodeAs none item
      let values ← decodeItems rest
      .ok (v :: values)

/-- Decode alternating keys and values as the entries of a map. -/
def decodePairs : List Json → Except DecodeError (List (Key × Value))
  | key :: value :: rest => do
      let k ← decodeAs none key
      let v ← decodeAs none value
      let entries ← decodePairs rest
      .ok ((mapKey k, v) :: entries)
  | _ => .ok []

end

def decode (j : Json) : Except DecodeError Value :=
  decodeAs none j

end GraphSON

end GraphGateway
