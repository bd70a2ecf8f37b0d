import GraphGateway.Value
import GraphGateway.Text.Decimal

/-!
# Evaluation errors

The causes for which evaluating a traversal over a graph fails, and their
wording.
-/

namespace GraphGateway

inductive EvaluationError where
  | vertexExists (id : ElementId)
  | noVertex (id : ElementId)
  | noEdge (id : ElementId)
  | danglingVertex (slot : Nat)
  | danglingEdge (slot : Nat)
  /-- Neighbours of something other than a vertex were asked for. -/
  | notAVertex (found : String)
  /-- Endpoints of something other than an edge were asked for. -/
  | notAnEdge (found : String)
  /-- A step that reads or writes elements met something else. -/
  | notAnElement (step found : String)
  | readOnly
  | anonymous
  | nothingToModulate (modulator : String)
  | cannotModulate (modulator step : String)
  | cannotStart (step : String)
  | severalShapes
  | tooManyShapes (keys modulators : Nat)
  | unsupportedId (found : String)
  | tokenProperty (t : Token)
  | endpointNotAVertex (found : String)
  | noEndpoint

namespace EvaluationError

def message : EvaluationError → String
  | vertexExists id => "vertex with id " ++ id.display ++ " already exists"
  | noVertex id => "no vertex with id " ++ id.display
  | noEdge id => "no edge with id " ++ id.display
  | danglingVertex slot => "dangling vertex index " ++ Text.naturalText slot
  | danglingEdge slot => "dangling edge index " ++ Text.naturalText slot
  | notAVertex found => "cannot walk edges from a " ++ found
  | notAnEdge found => "cannot take an endpoint of a " ++ found
  | notAnElement step found => step ++ "() requires an element, got " ++ found
  | readOnly => "mutation attempted through a read-only evaluation"
  | anonymous => "anonymous traversals cannot be submitted"
  | nothingToModulate modulator => modulator ++ "() has no step to modulate"
  | cannotModulate modulator step => modulator ++ "() cannot modulate " ++ step ++ "()"
  | cannotStart step => "traversal must start with V(), E(), addV() or addE(), not " ++ step ++ "()"
  | severalShapes => "valueMap() accepts a single by() modulator"
  | tooManyShapes keys modulators =>
      "project() has " ++ Text.naturalText keys ++ " keys but " ++
        Text.naturalText modulators ++ " by() modulators"
  | unsupportedId found => "unsupported id type " ++ found
  | tokenProperty t => "property(T." ++ t.name ++ ") is not supported"
  | endpointNotAVertex found => "addE() endpoint must be a vertex, got " ++ found
  | noEndpoint => "addE() endpoint matched no vertex"

end EvaluationError

end GraphGateway
