import GraphGateway.Json.Reader
import GraphGateway.Server.MediaType
import GraphGateway.Server.Target
import GraphGateway.Social.Sample

/-!
# The invocation server

Three routes: a greeting, a description of the server, and the invocations
themselves, which arrive as JSON and are answered with JSON. A path that is not
known, a method that a path does not have, and a body that is not declared as
JSON, that is too long, or that does not begin with a JSON value are refused.
-/

namespace GraphGateway

namespace Server

structure Request where
  method : String
  target : String
  contentType : Option String
  body : String

inductive Body where
  | empty
  | text (s : String)
  | json (j : Json)

structure Response where
  status : Nat
  body : Body

inductive Route where
  | greeting
  | description
  | invocation
  deriving DecidableEq

def route? (path : String) : Option Route :=
  if path = "/" then some .greeting
  else if path = "/version" then some .description
  else if path = "/2015-03-31/functions/function/invocations" then some .invocation
  else none

def declaresJson (contentType : String) : Bool :=
  (MediaType.read? contentType).any MediaType.isJson

/-- What the server dispatches to: the example over a graph of its own. -/
def dispatcher (maxDepth : Nat) (observed : Bool) : Dispatcher Store where
  registry := Social.registry maxDepth
  provider := .memory
  observed := observed

def version : String :=
  "0.1.0"

def describe (d : Dispatcher Store) : Json :=
  .ofFields
    [("version", .string version), ("backend", .string "memory"),
      ("resolvers",
        .array (d.registry.sortedKeys.map fun key => .ofFields key.data))]

def invoke (d : Dispatcher Store) (payload : Json) (r : Run Store) : Response × Run Store :=
  match d.invoke payload r with
  | (.ok answer, r) => (⟨200, .json answer⟩, r)
  | (.error envelope, r) => (⟨500, .json envelope.toJson⟩, r)

/-- The greatest number of bytes in a body that is read. -/
def longestBody : Nat :=
  2 * 1024 * 1024

def receive (d : Dispatcher Store) (q : Request) (r : Run Store) : Response × Run Store :=
  if q.contentType.any declaresJson then
    if longestBody < q.body.utf8ByteSize then (⟨413, .empty⟩, r)
    else
      match Json.readLeading? q.body with
      | some payload => invoke d payload r
      | none => (⟨400, .empty⟩, r)
  else (⟨415, .empty⟩, r)

/-- A response to a request that only reads; without its body when just the head was asked for. -/
def respondTo (method : String) (body : Body) : Response :=
  if method = "GET" then ⟨200, body⟩
  else if method = "HEAD" then ⟨200, .empty⟩
  else ⟨405, .empty⟩

def handle (d : Dispatcher Store) (q : Request) (r : Run Store) : Response × Run Store :=
  match (Target.path? q.target).bind route? with
  | none => (⟨404, .empty⟩, r)
  | some .greeting => (respondTo q.method (.text "Graphsync is running."), r)
  | some .description => (respondTo q.method (.json (describe d)), r)
  | some .invocation => if q.method = "POST" then receive d q r else (⟨405, .empty⟩, r)

end Server

end GraphGateway
