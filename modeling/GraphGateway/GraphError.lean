import GraphGateway.Graph.Error
import GraphGateway.Text.Decimal

/-!
# Graph errors

What can go wrong between submitting a traversal and receiving its results,
whichever backend holds the graph.
-/

namespace GraphGateway

inductive GraphError where
  /-- The backend could not be reached. -/
  | transport
  | server (status : Nat) (reason : String)
  | decode (reason : String)
  /-- The answer is not JSON at all. -/
  | unreadable (body : String)
  | evaluation (reason : String)
  deriving DecidableEq

namespace GraphError

def ofEvaluation (e : EvaluationError) : GraphError :=
  evaluation e.message

def message : GraphError → String
  | transport => "graph transport failed"
  | server status reason => "graph server returned " ++ Text.naturalText status ++ ": " ++ reason
  | decode reason => "undecodable graph response: " ++ reason
  | unreadable body => "undecodable graph response: not JSON - body: " ++ body
  | evaluation reason => "traversal evaluation failed: " ++ reason

end GraphError

end GraphGateway
