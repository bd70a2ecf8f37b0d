import GraphGateway.GraphError
import GraphGateway.Value.GraphSON
import GraphGateway.Json.Reader
import GraphGateway.Traversal.Script

/-!
# Remote graphs

A remote backend takes a script in a JSON body and answers with typed JSON. The
request is a function of the traversal, and the results are a function of the
status and the body of the answer.
-/

namespace GraphGateway

namespace Remote

structure Request where
  path : String
  accept : String
  body : Json

structure Response where
  status : Nat
  body : String

def mediaType : String :=
  "application/vnd.gremlin-v3.0+json"

def request (path : String) (t : Traversal) : Request :=
  ⟨path, mediaType, .ofFields [("gremlin", .string t.script)]⟩

def greatestStatus : Nat :=
  65535

/-- The values of a decoded result; a list is taken apart once. -/
def results : Value → List Value
  | .list items => items
  | other => [other]

/-- The results in a body. Its own status code counts as a failure from 400 on. -/
def decodeBody (body : Json) : Except GraphError (List Value) :=
  let status := body.field? "status"
  let code := ((status.bind fun s => s.field? "code").bind Json.asNat?).getD 200
  if 400 ≤ code then
    let reason := ((status.bind fun s => s.field? "message").bind Json.asString?).getD ""
    .error (.server (min code greatestStatus) reason)
  else
    match (body.field? "result").bind fun r => r.field? "data" with
    | none | some .null => .ok []
    | some data =>
        match GraphSON.decode data with
        | .ok v => .ok (results v)
        | .error e => .error (.decode e.message)

/-- The reason a failed response gives: its `message`, else its whole body. -/
def failureReason (body : String) : String :=
  ((Json.read? body).bind fun j => (j.field? "message").bind Json.asString?).getD body

def interpret (r : Response) : Except GraphError (List Value) :=
  if 200 ≤ r.status ∧ r.status < 300 then
    match Json.read? r.body with
    | some body => decodeBody body
    | none => .error (.unreadable r.body)
  else .error (.server r.status (failureReason r.body))

def interpretFirst (r : Response) : Except GraphError (Option Value) :=
  (interpret r).map List.head?

end Remote

end GraphGateway
