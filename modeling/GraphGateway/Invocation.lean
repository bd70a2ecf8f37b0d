import GraphGateway.Json.Typed

/-!
# Invocations

An invocation asks for one field of one type, with arguments, the caller's
identity and the parent object. Events arrive in two forms, with the names at
the top or in an `info` block; both are normalised to the same record, which is
only read afterwards.
-/

namespace GraphGateway

structure ResolverKey where
  typeName : String
  fieldName : String
  deriving DecidableEq

def ResolverKey.display (key : ResolverKey) : String :=
  key.typeName ++ "." ++ key.fieldName

inductive PayloadError where
  | shape (e : Json.ShapeError)
  | missingName (field : String)
  | notAnObject (field : String) (found : Json)

inductive ArgumentError where
  | payload (reason : PayloadError)
  | missing (name : String)
  | invalid (name : String) (reason : Json.ShapeError)
  /-- The filter argument is something other than an object. -/
  | notAFilter (found : Json)
  /-- The page argument is something other than an object. -/
  | notAPage (found : Json)
  /-- A page field is not a positive whole number of 32 bits. -/
  | notPositive (field : String) (found : Json)
  | zeroPage (page perPage : UInt32)

namespace PayloadError

def message : PayloadError → String
  | shape e => e.message
  | missingName field => "missing `" ++ field ++ "`"
  | notAnObject field found => "`" ++ field ++ "` must be an object, got " ++ found.text

end PayloadError

namespace ArgumentError

def isPagination : ArgumentError → Bool
  | notAPage _ | notPositive .. | zeroPage .. => true
  | _ => false

def message : ArgumentError → String
  | payload reason => "invalid invocation payload: " ++ reason.message
  | missing name => "missing required argument `" ++ name ++ "`"
  | invalid name reason => "invalid argument `" ++ name ++ "`: " ++ reason.message
  | notAFilter found => "invalid argument `input`: expected an object, got " ++ found.text
  | notAPage found => "invalid pagination: expected an object, got " ++ found.text
  | notPositive field found =>
      "invalid pagination: `" ++ field ++ "` must be an integer >= 1, got " ++ found.text
  | zeroPage page perPage =>
      "invalid pagination: page and per_page must be >= 1 (got page=" ++
        Text.naturalText page.toNat ++ ", per_page=" ++ Text.naturalText perPage.toNat ++ ")"

end ArgumentError

structure Invocation where
  typeName : String
  fieldName : String
  arguments : Fields
  identity : Option Fields
  source : Option Fields

namespace Invocation

def key (i : Invocation) : ResolverKey :=
  ⟨i.typeName, i.fieldName⟩

def optionalObject : Option Fields → Json
  | some fields => .object fields
  | none => .null

def toJson (i : Invocation) : Json :=
  .ofFields [("type_name", .string i.typeName), ("field_name", .string i.fieldName),
    ("arguments", .object i.arguments), ("identity", optionalObject i.identity),
    ("source", optionalObject i.source)]

/-! ## Arguments -/

def readNamed {α : Type} (name : String) (read : Json.Typed α) (value : Json) :
    Except ArgumentError α :=
  (read value).mapError (.invalid name)

/-- A required argument; `null` counts as absent. -/
def argument {α : Type} (i : Invocation) (name : String) (read : Json.Typed α) :
    Except ArgumentError α :=
  match i.arguments.get? name with
  | none | some .null => .error (.missing name)
  | some value => readNamed name read value

def argument? {α : Type} (i : Invocation) (name : String) (read : Json.Typed α) :
    Except ArgumentError (Option α) :=
  match i.arguments.get? name with
  | none | some .null => .ok none
  | some value => (readNamed name read value).map some

def sourceField {α : Type} (i : Invocation) (name : String) (read : Json.Typed α) :
    Except ArgumentError α :=
  match i.source.bind fun fields => fields.get? name with
  | none | some .null => .error (.missing ("source." ++ name))
  | some value => readNamed name read value

def filterInput (i : Invocation) : Except ArgumentError Fields :=
  match i.arguments.get? "input" with
  | none | some .null => .ok .empty
  | some (.object fields) => .ok fields
  | some other => .error (.notAFilter other)

end Invocation

end GraphGateway
