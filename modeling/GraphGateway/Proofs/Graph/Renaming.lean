import GraphGateway.Proofs.Evaluation.Listing
import GraphGateway.Proofs.Graph.Growth

/-!
# Renaming

What a graph shows after a vertex was given another identifier: everything that
can be read of it is what could be read before, with the one identifier in place
of the other. The identifier stands in the record of the vertex, in the index and
in every reference to the vertex or to one of its edges.
-/

namespace GraphGateway

variable {old new : ElementId}

/-! ## References -/

/-- What an identifier becomes when the vertex `old` is called `new`. -/
def ElementId.rename (old new id : ElementId) : ElementId :=
  if id = old then new else id

theorem ElementId.rename_old : rename old new old = new :=
  if_pos rfl

theorem ElementId.rename_self (id : ElementId) : rename old old id = id := by
  unfold rename
  split
  · next h => exact h.symm
  · rfl

def Vertex.renamed (old new : ElementId) (v : Vertex) : Vertex :=
  { v with id := .rename old new v.id }

/-- An edge keeps its own identifier; its ends may be called differently. -/
def Edge.renamed (old new : ElementId) (e : Edge) : Edge :=
  { e with source := .rename old new e.source, target := .rename old new e.target }

def VertexRecord.renamed (old new : ElementId) (r : VertexRecord) : VertexRecord :=
  { r with id := .rename old new r.id }

namespace Graph

variable {g next : Graph}

/-- A graph differs from another in the identifier of a vertex only. -/
structure Renames (g : Graph) (old new : ElementId) (next : Graph) : Prop where
  wellFormed : next.WellFormed
  vertices : ∀ slot, next.vertices.get? slot = (g.vertices.get? slot).map (.renamed old new)
  edges : next.edges = g.edges
  edgeIndex : next.edgeIndex = g.edgeIndex

/-! ## Writing -/

theorem WellFormed.renames (hw : g.WellFormed) {v : Vertex}
    (h : g.renameVertex old new = .ok (v, next)) : g.Renames old new next := by
  have hnext := hw.renameVertex h
  obtain ⟨slot, hslot, -, ⟨rfl, rfl⟩ | ⟨-, -, rfl⟩⟩ := renameVertex_eq_ok h
  · refine ⟨hw, fun other => ?_, rfl, rfl⟩
    have hsame : VertexRecord.renamed old old = fun r => r := by
      funext r
      simp only [VertexRecord.renamed, ElementId.rename_self]
    rw [hsame, Option.map_id']
  · refine ⟨hnext, fun other => ?_, rfl, rfl⟩
    obtain ⟨r, hr, rfl⟩ := hw.vertices_indexed.live_of_get? hslot
    rw [Arena.get?_modify]
    by_cases hother : slot = other
    · subst hother
      simp [hr, VertexRecord.renamed, ElementId.rename]
    · rw [if_neg hother]
      cases hq : g.vertices.get? other with
      | none => rfl
      | some q =>
          -- the record in another slot has another identifier
          have hne : q.id ≠ r.id := fun hid =>
            hother (hw.vertices_indexed.slot_unique hr hq hid.symm)
          simp [VertexRecord.renamed, ElementId.rename, hne]

/-- A vertex can keep its identifier, and take any that no vertex has. -/
theorem WellFormed.renameVertex_of_free (hw : g.WellFormed) {r : VertexRecord}
    (hr : g.recordOf? old = some r) (hfree : new = old ∨ g.recordOf? new = none) :
    ∃ next, g.renameVertex old new = .ok (⟨new, r.label⟩, next) := by
  obtain ⟨hid, -, slot, hslot, hlive⟩ := hw.recordOf?_eq_some hr
  unfold Graph.renameVertex
  rw [(vertexSlot_eq_ok_iff g old slot).mpr hslot, Except.ok_bind]
  by_cases hsame : old = new
  · have hat : g.vertexAt slot = .ok ⟨new, r.label⟩ := by
      rw [vertexAt_of_live hlive, VertexRecord.reference, hid, hsame]
    rw [if_pos hsame, hat]
    exact ⟨g, rfl⟩
  · have hnew : ¬ g.vertexIndex.contains new = true := by
      have hnone := hfree.resolve_left (Ne.symm hsame)
      rw [(hw.recordOf?_eq_none new).mp hnone]
      exact Bool.false_ne_true
    have hrenamed : (g.vertices.modify slot fun q => { q with id := new }).get? slot =
        some { r with id := new } := by
      rw [Arena.get?_modify, if_pos rfl, hlive]
      rfl
    rw [if_neg hsame, if_neg hnew]
    simp only [vertexAt, hrenamed]
    exact ⟨_, rfl⟩

/-- An identifier that another vertex has is refused. -/
theorem WellFormed.renameVertex_of_taken (hw : g.WellFormed) {r : VertexRecord}
    (hr : g.recordOf? old = some r) (hne : new ≠ old) (htaken : g.recordOf? new ≠ none) :
    g.renameVertex old new = .error (.vertexExists new) := by
  obtain ⟨-, -, slot, hslot, -⟩ := hw.recordOf?_eq_some hr
  have hnew : g.vertexIndex.contains new = true := by
    rw [Ne, hw.recordOf?_eq_none] at htaken
    simpa using htaken
  unfold Graph.renameVertex
  rw [(vertexSlot_eq_ok_iff g old slot).mpr hslot, Except.ok_bind, if_neg (Ne.symm hne),
    if_pos hnew]

/-! ## Reading -/

/-- A vertex is found under exactly its identifier. -/
theorem WellFormed.selectVertices_exact (hw : g.WellFormed) {value : Value} {id : ElementId}
    (hid : value.asId? = some id) {r : VertexRecord} (hr : g.recordOf? id = some r) :
    g.selectVertices [value] = .ok [.vertex r.reference] := by
  obtain ⟨-, -, slot, hslot, hlive⟩ := hw.recordOf?_eq_some hr
  have hfind : findSlot? g.vertexIndex value = some slot := by
    simp [findSlot?, hid, hslot]
  have hselect : selectSlots g.vertices g.vertexIndex [value] = [slot] := by
    simp [selectSlots, hfind]
  rw [hw.selectVertices, hselect]
  simp [vertexIn?_of_live hlive]

namespace Renames

theorem vertexIn? (h : g.Renames old new next) (slot : Nat) :
    next.vertexIn? slot = (g.vertexIn? slot).map (.renamed old new) := by
  unfold Graph.vertexIn?
  rw [h.vertices, Option.map_map, Option.map_map]
  rfl

theorem edgeIn? (h : g.Renames old new next) (slot : Nat) :
    next.edgeIn? slot = (g.edgeIn? slot).map (.renamed old new) := by
  unfold Graph.edgeIn?
  rw [h.edges, Option.map_bind]
  refine congrArg (Option.bind _) (funext fun e => ?_)
  simp only [edgeReference?, h.vertexIn?, Function.comp_apply]
  cases g.vertexIn? e.source with
  | none => rfl
  | some source => cases g.vertexIn? e.target <;> rfl

theorem get?_vertexIndex (h : g.Renames old new next) (hw : g.WellFormed) {id : ElementId}
    {slot : Nat} (hid : g.vertexIndex.get? id = some slot) :
    next.vertexIndex.get? (.rename old new id) = some slot := by
  obtain ⟨r, hr, rfl⟩ := hw.vertices_indexed.live_of_get? hid
  have hnext : next.vertices.get? slot = some (r.renamed old new) := by
    rw [h.vertices, hr]
    rfl
  exact h.wellFormed.vertices_indexed.get?_of_live hnext

theorem recordOf? (h : g.Renames old new next) (hw : g.WellFormed) {id : ElementId}
    {r : VertexRecord} (hr : g.recordOf? id = some r) :
    next.recordOf? (.rename old new id) = some (r.renamed old new) := by
  obtain ⟨slot, hslot, hlive⟩ := Option.bind_eq_some_iff.mp hr
  rw [Graph.recordOf?, h.get?_vertexIndex hw hslot]
  show next.vertices.get? slot = _
  rw [h.vertices, hlive]
  rfl

theorem element?_edge (h : g.Renames old new next) (e : Edge) :
    next.element? (.edge e) = g.element? (.edge e) := by
  simp only [element?, liveEdge?, h.edges, h.edgeIndex]

theorem allVertices (h : g.Renames old new next) :
    next.allVertices = g.allVertices.map (.renamed old new) := by
  have hlive : ∀ slot, next.vertices.isLive slot = true → g.vertices.isLive slot = true := by
    intro slot hslot
    rwa [Arena.isLive, h.vertices, Option.isSome_map] at hslot
  unfold Graph.allVertices
  rw [Arena.filterMap_live_slots hlive fun _ => vertexIn?_of_vacant, List.map_filterMap]
  exact List.filterMap_congr fun slot _ => h.vertexIn? slot

theorem allEdges (h : g.Renames old new next) :
    next.allEdges = g.allEdges.map (.renamed old new) := by
  unfold Graph.allEdges
  rw [h.edges, List.map_filterMap]
  exact List.filterMap_congr fun slot _ => h.edgeIn? slot

section Walks

variable {v : Vertex} {slot : Nat}

theorem edgesAt (h : g.Renames old new next) (side : Side) (labels : List String) :
    next.edgesAt side labels slot = g.edgesAt side labels slot := by
  simp only [Graph.edgesAt, h.edges]

theorem neighbourhood (h : g.Renames old new next) (hw : g.WellFormed) (side : Side)
    (labels : List String) (hv : g.vertexIndex.get? v.id = some slot) :
    next.neighbourhood side labels (v.renamed old new) =
      (g.neighbourhood side labels v).map (.renamed old new) := by
  have hnext : next.vertexIndex.get? (v.renamed old new).id = some slot :=
    h.get?_vertexIndex hw hv
  simp only [Graph.neighbourhood, hv, hnext, h.edgesAt]
  rw [List.map_filterMap]
  exact List.filterMap_congr fun p _ => h.vertexIn? _

theorem incidence (h : g.Renames old new next) (hw : g.WellFormed) (side : Side)
    (labels : List String) (hv : g.vertexIndex.get? v.id = some slot) :
    next.incidence side labels (v.renamed old new) =
      (g.incidence side labels v).map (.renamed old new) := by
  have hnext : next.vertexIndex.get? (v.renamed old new).id = some slot :=
    h.get?_vertexIndex hw hv
  simp only [Graph.incidence, hv, hnext, h.edgesAt]
  rw [List.map_filterMap]
  exact List.filterMap_congr fun p _ => h.edgeIn? _

theorem around (h : g.Renames old new next) (hw : g.WellFormed) (direction : Direction)
    (labels : List String) (hv : g.vertexIndex.get? v.id = some slot) :
    next.around direction labels (v.renamed old new) =
      (g.around direction labels v).map (.renamed old new) := by
  cases direction with
  | along side => exact h.neighbourhood hw side labels hv
  | both =>
      unfold Graph.around
      rw [h.neighbourhood hw .outgoing labels hv, h.neighbourhood hw .incoming labels hv,
        List.map_append]

end Walks

end Renames

end Graph

end GraphGateway
