import GraphGateway.Predicate

/-!
# Traversals

A traversal is a list of steps that starts at the graph (a root traversal) or at
whatever it is applied to (an anonymous one). Steps may hold child traversals;
modulators refine the step before them.
-/

namespace GraphGateway

/-- One end of an edge, seen from a vertex: the edges that leave it or that point at it. -/
inductive Side where
  | outgoing
  | incoming
  deriving DecidableEq

inductive Direction where
  | along (side : Side)
  | both
  deriving DecidableEq

/-- What a modulator says about the step before it. -/
inductive Role where
  /-- How each emitted value is shaped. -/
  | shape
  /-- Where a new edge starts. -/
  | source
  /-- Where a new edge ends. -/
  | target
  deriving DecidableEq

mutual

inductive Step where
  | vertices (ids : List Value)
  | edges (ids : List Value)
  | addVertex (label : String)
  | addEdge (label : String)
  | property (key : Key) (value : Value)
  | hasLabel (labels : List String)
  | has (key : Key) (predicate : Predicate)
  | hop (direction : Direction) (labels : List String)
  | incident (side : Side) (labels : List String)
  | endpoint (side : Side)
  | suchThat (condition : Traversal)
  | valueMap (tokens : Bool) (keys : List String)
  | values (keys : List String)
  | id
  | label
  | fold
  | unfold
  | count
  | range (low high : Int64)
  | limit (size : Int64)
  | project (keys : List String)
  | dedup
  | constant (value : Value)
  | drop
  | modulator (role : Role) (child : Traversal)

/-- A list of steps, anonymous or starting at the graph. -/
inductive Traversal where
  | mk (anonymous : Bool) (steps : List Step)

end

namespace Role

def name : Role → String
  | shape => "by"
  | source => "from"
  | target => "to"

end Role

namespace Step

def name : Step → String
  | vertices _ => "V"
  | edges _ => "E"
  | addVertex _ => "addV"
  | addEdge _ => "addE"
  | property .. => "property"
  | hasLabel _ => "hasLabel"
  | has .. => "has"
  | hop (.along .outgoing) _ => "out"
  | hop (.along .incoming) _ => "in"
  | hop .both _ => "both"
  | incident .outgoing _ => "outE"
  | incident .incoming _ => "inE"
  | endpoint .outgoing => "outV"
  | endpoint .incoming => "inV"
  | suchThat _ => "where"
  | valueMap .. => "valueMap"
  | values _ => "values"
  | id => "id"
  | label => "label"
  | fold => "fold"
  | unfold => "unfold"
  | count => "count"
  | range .. => "range"
  | limit _ => "limit"
  | project _ => "project"
  | dedup => "dedup"
  | constant _ => "constant"
  | drop => "drop"
  | modulator role _ => role.name

/-- Whether the step refines the one before it. -/
def isModulator : Step → Bool
  | modulator .. => true
  | _ => false

end Step

mutual

/-- Whether running the step may write to the graph. -/
def Step.isMutation : Step → Bool
  | .addVertex _ => true
  | .addEdge _ => true
  | .property .. => true
  | .drop => true
  | .suchThat condition => condition.isMutating
  | .modulator _ child => child.isMutating
  | _ => false

/-- Whether a step of the traversal, at any depth, may write to the graph. -/
def Traversal.isMutating : Traversal → Bool
  | .mk _ steps => Step.anyMutation steps

def Step.anyMutation : List Step → Bool
  | [] => false
  | step :: rest => step.isMutation || Step.anyMutation rest

end

namespace Traversal

def isAnonymous : Traversal → Bool
  | mk anonymous _ => anonymous

def steps : Traversal → List Step
  | mk _ steps => steps

def isEmpty (t : Traversal) : Bool :=
  t.steps.isEmpty

def step (t : Traversal) (s : Step) : Traversal :=
  mk t.isAnonymous (t.steps ++ [s])

def extend (t : Traversal) (more : List Step) : Traversal :=
  mk t.isAnonymous (t.steps ++ more)

def root (steps : List Step) : Traversal :=
  mk false steps

def anonymous (steps : List Step) : Traversal :=
  mk true steps

end Traversal

end GraphGateway
