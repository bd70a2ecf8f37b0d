import GraphGateway.Graph

/-!
# Walking a graph

Finding elements by identifier, reading the live element behind a reference, and
stepping from vertices to edges and neighbours, always in slot order. References
to elements that no longer exist lead nowhere.
-/

namespace GraphGateway

namespace Graph

/-! ## Finding elements -/

/-- The slot an identifier value names: an exact identifier, else one with the same text. -/
def findSlot? (index : OrderedMap ElementId Nat) (v : Value) : Option Nat :=
  match v.asId?.bind index.get? with
  | some slot => some slot
  | none => (index.entries.find? fun entry => entry.1.matchesValue v).map Prod.snd

/-- The vertices named by identifier values, all of them when none is given. -/
def selectVertices (g : Graph) (ids : List Value) : Except EvaluationError (List Value) :=
  let slots :=
    if ids.isEmpty then g.vertices.live.map Prod.fst else ids.filterMap (findSlot? g.vertexIndex)
  slots.mapM fun slot => (g.vertexAt slot).map .vertex

def selectEdges (g : Graph) (ids : List Value) : Except EvaluationError (List Value) :=
  let slots :=
    if ids.isEmpty then g.edges.live.map Prod.fst else ids.filterMap (findSlot? g.edgeIndex)
  slots.mapM fun slot => (g.edgeAt slot).map .edge

/-! ## Reading elements -/

structure Element where
  id : ElementId
  label : String
  properties : Properties

def liveVertex? (g : Graph) (v : Vertex) : Option Element :=
  (g.vertexIndex.get? v.id).bind fun slot =>
    (g.vertices.get? slot).map fun r => ⟨r.id, r.label, r.properties⟩

def liveEdge? (g : Graph) (e : Edge) : Option Element :=
  (g.edgeIndex.get? e.id).bind fun slot =>
    (g.edges.get? slot).map fun r => ⟨r.id, r.label, r.properties⟩

def element? (g : Graph) : Value → Option Element
  | .vertex v => g.liveVertex? v
  | .edge e => g.liveEdge? e
  | _ => none

def element (g : Graph) (step : String) (v : Value) : Except EvaluationError Element :=
  match g.element? v with
  | some e => .ok e
  | none => .error (.notAnElement step v.typeName)

def hasLabel (g : Graph) (labels : List String) (v : Value) : Bool :=
  (g.element? v).any fun e => labels.contains e.label

/-- Whether the value of an element under a key passes a predicate; absent values never do. -/
def has (g : Graph) (key : Key) (p : Predicate) (v : Value) : Bool :=
  match g.element? v with
  | none => false
  | some e =>
      match key with
      | .token .id => p.accepts e.id.toValue
      | .token .label => p.accepts (.string e.label)
      | .token _ => false
      | .name k => (e.properties.get? k).any p.accepts

/-- Whether a list of names admits a name; an empty list admits every name. -/
def admits (names : List String) (name : String) : Bool :=
  names.isEmpty || names.contains name

def propertyValues (keys : List String) (e : Element) : List Value :=
  (e.properties.entries.filter fun entry => admits keys entry.1).map Prod.snd

/-- The record of an element; properties of vertices come as lists of one value. -/
def valueMap (g : Graph) (tokens : Bool) (keys : List String) (v : Value) :
    Except EvaluationError Record := do
  let e ← g.element "valueMap" v
  let listed :=
    match v with
    | .vertex _ => true
    | _ => false
  let system : List (Key × Value) :=
    if tokens then [(.token .id, e.id.toValue), (.token .label, .string e.label)] else []
  let properties :=
    (e.properties.entries.filter fun entry => admits keys entry.1).map fun (k, value) =>
      (Key.name k, if listed then .list [value] else value)
  .ok (.ofList (system ++ properties))

/-! ## Following edges -/

/-- The slots of the edges with admitted labels anchored at a vertex, in slot order. -/
def edgesAt (g : Graph) (side : Side) (labels : List String) (vertex : Nat) :
    List (Nat × EdgeRecord) :=
  g.edges.live.filter fun (_, r) => r.anchor side == vertex && admits labels r.label

/-- The slot of the vertex a value refers to, `none` when it no longer exists. -/
def walkStart (g : Graph) : Value → Except EvaluationError (Option Nat)
  | .vertex v => .ok (g.vertexIndex.get? v.id)
  | other => .error (.notAVertex other.typeName)

def incidentEdges (g : Graph) (side : Side) (labels : List String) (v : Value) :
    Except EvaluationError (List Value) := do
  match ← g.walkStart v with
  | none => .ok []
  | some slot => (g.edgesAt side labels slot).mapM fun (e, _) => (g.edgeAt e).map .edge

def neighbours (g : Graph) (side : Side) (labels : List String) (v : Value) :
    Except EvaluationError (List Value) := do
  match ← g.walkStart v with
  | none => .ok []
  | some slot =>
      (g.edgesAt side labels slot).mapM fun (_, r) => (g.vertexAt (r.opposite side)).map .vertex

/-- The neighbours of a vertex in a direction; both directions means outgoing edges first. -/
def hop (g : Graph) (direction : Direction) (labels : List String) (v : Value) :
    Except EvaluationError (List Value) :=
  match direction with
  | .along side => g.neighbours side labels v
  | .both => do
      let out ← g.neighbours .outgoing labels v
      let into ← g.neighbours .incoming labels v
      .ok (out ++ into)

/-- The vertex an edge starts from (`outgoing`) or leads to (`incoming`), while the edge exists. -/
def endpoint (g : Graph) (side : Side) : Value → Except EvaluationError (List Value)
  | .edge e =>
      match (g.edgeIndex.get? e.id).bind g.edges.get? with
      | none => .ok []
      | some r => (g.vertexAt (r.anchor side)).map fun v => [.vertex v]
  | other => .error (.notAnEdge other.typeName)

end Graph

end GraphGateway
