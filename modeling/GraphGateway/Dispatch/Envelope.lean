import GraphGateway.Resolver.Error

/-!
# Error envelopes

The one shape in which failures leave the gateway: a stable classification, a
message, and the data of the cause.
-/

namespace GraphGateway

inductive DispatchError where
  | invalidPayload (e : ArgumentError)
  | unregistered (key : ResolverKey)
  | connection (e : GraphError)
  | resolver (key : ResolverKey) (e : ResolverError)

/-- A failure as the caller sees it. -/
structure Envelope where
  errorType : String
  errorMessage : String
  data : Fields

namespace Envelope

def toJson (e : Envelope) : Json :=
  .ofFields [("error_type", .string e.errorType), ("error_message", .string e.errorMessage),
    ("data", .object e.data)]

def display (e : Envelope) : String :=
  e.errorType ++ ": " ++ e.errorMessage

end Envelope

def FilterError.classification : FilterError → String
  | unknownOperator .. | unknownUntypedOperator .. => "UnknownOperator"
  | unknownField .. => "UnknownFilterField"
  | unknownFilter _ => "UnknownFilter"
  | expectedObject .. => "InvalidFilter"
  | invalidValue .. => "InvalidFilterValue"
  | depthExceeded _ => "FilterDepthExceeded"

def GraphError.classification : GraphError → String
  | transport => "GraphTransportError"
  | server .. => "GraphServerError"
  | decode _ | unreadable _ => "GraphDecodeError"
  | evaluation _ => "TraversalError"

def ResolverError.classification : ResolverError → String
  | argument e => if e.isPagination then "InvalidPagination" else "InvalidArgument"
  | filter e => e.classification
  | graph e => e.classification
  | noResult _ => "NoResult"
  | notFound _ => "NotFound"
  | unexpectedShape _ => "UnexpectedResult"
  | custom _ => "ResolverError"

def FilterError.data : FilterError → List (String × Json)
  | unknownOperator kind operator =>
      [("kind", .string kind.name), ("operator", .string operator)]
  | unknownUntypedOperator field operator =>
      [("field", .string field), ("operator", .string operator)]
  | unknownField filter field => [("filter", .string filter), ("field", .string field)]
  | unknownFilter name => [("filter", .string name)]
  | expectedObject field _ => [("field", .string field)]
  | invalidValue field operator _ => [("field", .string field), ("operator", .string operator)]
  | depthExceeded maxDepth => [("max_depth", .int maxDepth)]

def GraphError.data : GraphError → List (String × Json)
  | server status _ => [("status", .int status)]
  | _ => []

def ResolverError.data : ResolverError → List (String × Json)
  | filter e => e.data
  | graph e => e.data
  | _ => []

def ResolverKey.data (key : ResolverKey) : List (String × Json) :=
  [("type_name", .string key.typeName), ("field_name", .string key.fieldName)]

namespace DispatchError

def classification : DispatchError → String
  | invalidPayload _ => "InvalidPayload"
  | unregistered _ => "UnregisteredResolver"
  | connection _ => "ConnectionError"
  | resolver _ e => e.classification

def message : DispatchError → String
  | invalidPayload e => e.message
  | unregistered key => "no resolver registered for " ++ key.display
  | connection e => "could not open a graph connection: " ++ e.message
  | resolver key e => "resolver " ++ key.display ++ " failed: " ++ e.message

def data : DispatchError → List (String × Json)
  | invalidPayload _ => []
  | unregistered key => key.data
  | connection e => e.data
  | resolver key e => key.data ++ e.data

def envelope (e : DispatchError) : Envelope :=
  ⟨e.classification, e.message, .ofList e.data⟩

end DispatchError

end GraphGateway
