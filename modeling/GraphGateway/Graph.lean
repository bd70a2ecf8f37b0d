import GraphGateway.Graph.Arena
import GraphGateway.Graph.Error
import GraphGateway.Traversal

/-!
# Property graphs

A directed graph whose vertices and edges carry a label and properties. Both
kinds of element live in arenas and are found through an index of their
identifiers. Removing a vertex removes the edges at either end first.
-/

namespace GraphGateway

/-- Properties of an element, in the order in which they were first written. -/
abbrev Properties :=
  OrderedMap String Value

structure VertexRecord where
  id : ElementId
  label : String
  properties : Properties

/-- What the graph stores of an edge, with the slots of the vertices it joins. -/
structure EdgeRecord where
  id : ElementId
  label : String
  properties : Properties
  source : Nat
  target : Nat

structure Graph where
  vertices : Arena VertexRecord
  edges : Arena EdgeRecord
  vertexIndex : OrderedMap ElementId Nat
  edgeIndex : OrderedMap ElementId Nat
  /-- The slots of the edges, the most recently added first. -/
  newest : List Nat

/-- The slot of the vertex at one end of an edge: where outgoing edges start, where incoming ones
end. -/
def EdgeRecord.anchor (e : EdgeRecord) : Side → Nat
  | .outgoing => e.source
  | .incoming => e.target

/-- The slot of the vertex at the far end of an edge, seen from the anchor. -/
def EdgeRecord.opposite (e : EdgeRecord) : Side → Nat
  | .outgoing => e.target
  | .incoming => e.source

namespace Graph

def empty : Graph :=
  ⟨.empty, .empty, .empty, .empty, []⟩

def vertexCount (g : Graph) : Nat :=
  g.vertexIndex.size

def edgeCount (g : Graph) : Nat :=
  g.edgeIndex.size

/-! ## Reading -/

def vertexSlot (g : Graph) (id : ElementId) : Except EvaluationError Nat :=
  match g.vertexIndex.get? id with
  | some slot => .ok slot
  | none => .error (.noVertex id)

def edgeSlot (g : Graph) (id : ElementId) : Except EvaluationError Nat :=
  match g.edgeIndex.get? id with
  | some slot => .ok slot
  | none => .error (.noEdge id)

def vertexAt (g : Graph) (slot : Nat) : Except EvaluationError Vertex :=
  match g.vertices.get? slot with
  | some record => .ok ⟨record.id, record.label⟩
  | none => .error (.danglingVertex slot)

def edgeAt (g : Graph) (slot : Nat) : Except EvaluationError Edge :=
  match g.edges.get? slot with
  | none => .error (.danglingEdge slot)
  | some record => do
      let source ← g.vertexAt record.source
      let target ← g.vertexAt record.target
      .ok ⟨record.id, record.label, source.id, target.id⟩

def vertexProperty? (g : Graph) (id : ElementId) (key : String) : Option Value :=
  match g.vertexIndex.get? id with
  | some slot => (g.vertices.get? slot).bind fun record => record.properties.get? key
  | none => none

/-! ## Writing -/

def insertVertex (g : Graph) (id : ElementId) (label : String) :
    Except EvaluationError (Vertex × Graph) :=
  if g.vertexIndex.contains id then .error (.vertexExists id)
  else
    let (vertices, slot) := g.vertices.insert ⟨id, label, .empty⟩
    .ok (⟨id, label⟩, { g with vertices, vertexIndex := g.vertexIndex.insert id slot })

def insertEdge (g : Graph) (id : ElementId) (label : String) (source target : ElementId) :
    Except EvaluationError (Edge × Graph) := do
  let sourceSlot ← g.vertexSlot source
  let targetSlot ← g.vertexSlot target
  let (edges, slot) := g.edges.insert ⟨id, label, .empty, sourceSlot, targetSlot⟩
  .ok (⟨id, label, source, target⟩,
    { g with edges, edgeIndex := g.edgeIndex.insert id slot, newest := slot :: g.newest })

def setVertexProperty (g : Graph) (id : ElementId) (key : String) (value : Value) :
    Except EvaluationError Graph := do
  let slot ← g.vertexSlot id
  .ok
    { g with
      vertices :=
        g.vertices.modify slot fun r => { r with properties := r.properties.insert key value } }

def setEdgeProperty (g : Graph) (id : ElementId) (key : String) (value : Value) :
    Except EvaluationError Graph := do
  let slot ← g.edgeSlot id
  .ok
    { g with
      edges := g.edges.modify slot fun r => { r with properties := r.properties.insert key value } }

def setVertexProperties (g : Graph) (id : ElementId) :
    List (String × Value) → Except EvaluationError Graph
  | [] => .ok g
  | (key, value) :: rest => do
      let next ← g.setVertexProperty id key value
      next.setVertexProperties id rest

def addVertex (g : Graph) (id : ElementId) (label : String) (properties : List (String × Value)) :
    Except EvaluationError (Vertex × Graph) := do
  let (vertex, next) ← g.insertVertex id label
  let done ← next.setVertexProperties id properties
  .ok (vertex, done)

/-- Give the vertex `old` the identifier `new`; slot, label, properties and edges stay. -/
def renameVertex (g : Graph) (old new : ElementId) : Except EvaluationError (Vertex × Graph) := do
  let slot ← g.vertexSlot old
  if old = new then do
    let vertex ← g.vertexAt slot
    .ok (vertex, g)
  else if g.vertexIndex.contains new then .error (.vertexExists new)
  else do
    let renamed :=
      { g with
        vertices := g.vertices.modify slot fun r => { r with id := new }
        vertexIndex := (g.vertexIndex.erase old).insert new slot }
    let vertex ← renamed.vertexAt slot
    .ok (vertex, renamed)

def isAnchored (g : Graph) (side : Side) (vertex edge : Nat) : Bool :=
  (g.edges.get? edge).any fun r => r.anchor side == vertex

/-- Slots of the edges at a vertex, in the order in which they are vacated with it. -/
def incidentSlots (g : Graph) (vertex : Nat) : List Nat :=
  g.newest.filter (fun e => g.isAnchored .outgoing vertex e) ++
    g.newest.filter fun e => g.isAnchored .incoming vertex e && !g.isAnchored .outgoing vertex e

def unindex (index : OrderedMap ElementId Nat) : List ElementId → OrderedMap ElementId Nat
  | [] => index
  | id :: rest => unindex (index.erase id) rest

/-- Remove a vertex together with its edges; nothing happens when there is no such vertex. -/
def removeVertex (g : Graph) (id : ElementId) : Graph :=
  match g.vertexIndex.get? id with
  | none => g
  | some slot =>
      let incident := g.incidentSlots slot
      let ids := incident.filterMap fun e => (g.edges.get? e).map EdgeRecord.id
      { vertices := g.vertices.erase slot
        edges := g.edges.eraseAll incident
        vertexIndex := g.vertexIndex.erase id
        edgeIndex := unindex g.edgeIndex ids
        newest := g.newest.filter fun e => !incident.contains e }

/-- Remove an edge; nothing happens when there is no such edge. -/
def removeEdge (g : Graph) (id : ElementId) : Graph :=
  match g.edgeIndex.get? id with
  | none => g
  | some slot =>
      { g with
        edges := g.edges.erase slot
        edgeIndex := g.edgeIndex.erase id
        newest := g.newest.filter fun e => e != slot }

end Graph

end GraphGateway
