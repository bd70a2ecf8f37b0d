import GraphGateway.Invocation

/-!
# Events

The wire form of an invocation. An event is an object whose fields are checked
in the order in which they stand, or an array of the same fields in fixed order.
Absent fields and `null` mean the same; unknown fields are ignored.
-/

namespace GraphGateway

namespace Invocation

/-- The block that names type and field in the nested form of an event. -/
structure InfoBlock where
  typeName : Option String
  fieldName : Option String

structure Event where
  typeName : Option String
  fieldName : Option String
  arguments : Option Fields
  identity : Option Json
  source : Option Json
  info : Option InfoBlock

def eventShape : Json.Shape :=
  .structure "InvocationEvent" 6

def infoShape : Json.Shape :=
  .structure "InvocationInfo" 2

namespace InfoBlock

def withField (block : InfoBlock) (name : String) (value : Json) :
    Except Json.ShapeError InfoBlock :=
  if name = "parentTypeName" then
    (Json.readNullable Json.readText value).map fun typeName => { block with typeName }
  else if name = "fieldName" then
    (Json.readNullable Json.readText value).map fun fieldName => { block with fieldName }
  else .ok block

def ofFields (block : InfoBlock) : List (String × Json) → Except Json.ShapeError InfoBlock
  | [] => .ok block
  | (name, value) :: rest =>
      match block.withField name value with
      | .error e => .error e
      | .ok next => ofFields next rest

def rowNames : List String :=
  ["parentTypeName", "fieldName"]

def ofRow (items : List Json) : Except Json.ShapeError InfoBlock := do
  let block ← ofFields ⟨none, none⟩ (rowNames.zip items)
  if items.length < 2 then .error (.tooShort items.length infoShape)
  else if rowNames.length < items.length then .error (.tooLong items.length)
  else .ok block

def read : Json.Typed InfoBlock
  | .object fields => ofFields ⟨none, none⟩ fields.entries
  | .array items => ofRow items
  | other => .error (.mismatch other infoShape)

end InfoBlock

namespace Event

def blank : Event :=
  ⟨none, none, none, none, none, none⟩

def withField (event : Event) (name : String) (value : Json) : Except Json.ShapeError Event :=
  if name = "type_name" then
    (Json.readNullable Json.readText value).map fun typeName => { event with typeName }
  else if name = "field_name" then
    (Json.readNullable Json.readText value).map fun fieldName => { event with fieldName }
  else if name = "arguments" then
    (Json.readNullable Json.readMap value).map fun arguments => { event with arguments }
  else if name = "identity" then
    (Json.readNullable Json.readAny value).map fun identity => { event with identity }
  else if name = "source" then
    (Json.readNullable Json.readAny value).map fun source => { event with source }
  else if name = "info" then
    (Json.readNullable InfoBlock.read value).map fun info => { event with info }
  else .ok event

def ofFields (event : Event) : List (String × Json) → Except Json.ShapeError Event
  | [] => .ok event
  | (name, value) :: rest =>
      match event.withField name value with
      | .error e => .error e
      | .ok next => ofFields next rest

def rowNames : List String :=
  ["type_name", "field_name", "arguments", "identity", "source", "info"]

def ofRow (items : List Json) : Except Json.ShapeError Event := do
  let event ← ofFields blank (rowNames.zip items)
  if items.length < 2 then .error (.tooShort items.length eventShape)
  else if rowNames.length < items.length then .error (.tooLong items.length)
  else .ok event

def read : Json.Typed Event
  | .object fields => ofFields blank fields.entries
  | .array items => ofRow items
  | other => .error (.mismatch other eventShape)

end Event

def objectField (name : String) : Option Json → Except PayloadError (Option Fields)
  | none => .ok none
  | some (.object fields) => .ok (some fields)
  | some other => .error (.notAnObject name other)

/-- The invocation an event stands for; names at the top win over those of the info block. -/
def ofParts (event : Event) : Except PayloadError Invocation := do
  let typeName ←
    match event.typeName.or (event.info.bind InfoBlock.typeName) with
    | some name => .ok name
    | none => .error (.missingName "type_name")
  let fieldName ←
    match event.fieldName.or (event.info.bind InfoBlock.fieldName) with
    | some name => .ok name
    | none => .error (.missingName "field_name")
  let identity ← objectField "identity" event.identity
  let source ← objectField "source" event.source
  .ok ⟨typeName, fieldName, event.arguments.getD .empty, identity, source⟩

def ofEvent (value : Json) : Except ArgumentError Invocation :=
  match Event.read value with
  | .error e => .error (.payload (.shape e))
  | .ok event => (ofParts event).mapError .payload

end Invocation

end GraphGateway
