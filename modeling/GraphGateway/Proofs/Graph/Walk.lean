import GraphGateway.Proofs.Graph.WellFormed

/-!
# Walking well-formed graphs

What a step that reads finds, as plain lists: slots lead to references, walks to
the references at the far ends of edges. In a well-formed graph no walk meets a
vacant slot, so every failure of a read is about the value it was given.
-/

namespace GraphGateway

/-- Failures that are not about an index leading to a vacant slot. -/
def EvaluationError.isOrdinary : EvaluationError → Bool
  | .danglingVertex _ => false
  | .danglingEdge _ => false
  | _ => true

namespace Graph

variable {g : Graph}

theorem mapM_eq_ok_filterMap {α β ε : Type} {f : α → Except ε β} {read : α → Option β}
    (items : List α) (h : ∀ a ∈ items, ∃ b, read a = some b ∧ f a = .ok b) :
    items.mapM f = .ok (items.filterMap read) := by
  induction items with
  | nil => rfl
  | cons a rest ih =>
      obtain ⟨b, hread, hf⟩ := h a List.mem_cons_self
      have hrest := ih fun c hc => h c (List.mem_cons_of_mem a hc)
      rw [List.mapM_cons, hf, hrest, List.filterMap_cons_some hread]
      rfl

/-! ## References -/

def vertexIn? (g : Graph) (slot : Nat) : Option Vertex :=
  (g.vertices.get? slot).map VertexRecord.reference

def edgeReference? (g : Graph) (e : EdgeRecord) : Option Edge :=
  match g.vertexIn? e.source, g.vertexIn? e.target with
  | some source, some target => some ⟨e.id, e.label, source.id, target.id⟩
  | _, _ => none

def edgeIn? (g : Graph) (slot : Nat) : Option Edge :=
  (g.edges.get? slot).bind g.edgeReference?

theorem vertexIn?_of_live {slot : Nat} {r : VertexRecord} (hr : g.vertices.get? slot = some r) :
    g.vertexIn? slot = some r.reference := by
  simp [vertexIn?, hr]

theorem vertexIn?_of_vacant {slot : Nat} (h : g.vertices.get? slot = none) :
    g.vertexIn? slot = none := by
  rw [vertexIn?, h, Option.map_none]

theorem edgeIn?_of_vacant {slot : Nat} (h : g.edges.get? slot = none) :
    g.edgeIn? slot = none := by
  rw [edgeIn?, h, Option.bind_none]

/-- A vertex is indexed under the identifier of the reference to it. -/
theorem WellFormed.get?_of_vertexIn? (hw : g.WellFormed) {slot : Nat} {v : Vertex}
    (hv : g.vertexIn? slot = some v) : g.vertexIndex.get? v.id = some slot := by
  obtain ⟨r, hr, rfl⟩ := Option.map_eq_some_iff.mp hv
  exact hw.vertices_indexed.get?_of_live hr

/-- Both ends of an edge are vertices, and the reference to the edge names them. -/
theorem WellFormed.edgeIn?_ends (hw : g.WellFormed) {slot : Nat} {e : EdgeRecord}
    (he : g.edges.get? slot = some e) :
    ∃ source target, g.vertexIn? e.source = some source ∧ g.vertexIn? e.target = some target ∧
      g.edgeIn? slot = some ⟨e.id, e.label, source.id, target.id⟩ := by
  obtain ⟨s, hs⟩ := hw.anchor_live slot e he .outgoing
  obtain ⟨t, ht⟩ := hw.anchor_live slot e he .incoming
  have hsource : g.vertexIn? e.source = some s.reference := vertexIn?_of_live hs
  have htarget : g.vertexIn? e.target = some t.reference := vertexIn?_of_live ht
  exact ⟨_, _, hsource, htarget, by simp [edgeIn?, he, edgeReference?, hsource, htarget]⟩

/-- An edge is indexed under the identifier of the reference to it. -/
theorem WellFormed.get?_of_edgeIn? (hw : g.WellFormed) {slot : Nat} {edge : Edge}
    (hedge : g.edgeIn? slot = some edge) : g.edgeIndex.get? edge.id = some slot := by
  obtain ⟨e, he, -⟩ := Option.bind_eq_some_iff.mp hedge
  obtain ⟨_, _, -, -, hin⟩ := hw.edgeIn?_ends he
  rw [hin] at hedge
  cases hedge
  exact hw.edges_indexed.get?_of_live he

theorem WellFormed.edgeAt_of_live (hw : g.WellFormed) {slot : Nat} {e : EdgeRecord}
    (he : g.edges.get? slot = some e) :
    ∃ edge, g.edgeIn? slot = some edge ∧ g.edgeAt slot = .ok edge ∧
      edge.id = e.id ∧ edge.label = e.label := by
  obtain ⟨source, target, hsource, htarget, hin⟩ := hw.edgeIn?_ends he
  refine ⟨_, hin, ?_, rfl, rfl⟩
  obtain ⟨s, hs, rfl⟩ := Option.map_eq_some_iff.mp hsource
  obtain ⟨t, ht, rfl⟩ := Option.map_eq_some_iff.mp htarget
  have hfrom : g.vertexAt e.source = .ok s.reference := vertexAt_of_live hs
  have hto : g.vertexAt e.target = .ok t.reference := vertexAt_of_live ht
  simp [edgeAt, he, hfrom, hto, bind, Except.bind]

/-! ## Finding elements -/

theorem findSlot?_live {α : Type} {idOf : α → ElementId} {arena : Arena α}
    {index : OrderedMap ElementId Nat} (h : Indexed idOf arena index) {v : Value} {slot : Nat}
    (hs : findSlot? index v = some slot) : ∃ r, arena.get? slot = some r := by
  unfold findSlot? at hs
  split at hs
  · next found hfound =>
      cases hs
      obtain ⟨id, -, hid⟩ := Option.bind_eq_some_iff.mp hfound
      obtain ⟨r, hr, -⟩ := h.live_of_get? hid
      exact ⟨r, hr⟩
  · obtain ⟨⟨id, found⟩, hfound, rfl⟩ := Option.map_eq_some_iff.mp hs
    have hget := (h.index_distinct.get?_eq_some_iff id found).mpr (List.mem_of_find?_eq_some hfound)
    obtain ⟨r, hr, -⟩ := h.live_of_get? hget
    exact ⟨r, hr⟩

/-- The slots that identifier values name, all occupied ones when there are none. -/
def selectSlots {α : Type} (arena : Arena α) (index : OrderedMap ElementId Nat) (ids : List Value) :
    List Nat :=
  if ids.isEmpty then arena.live.map Prod.fst else ids.filterMap (findSlot? index)

theorem mem_selectSlots {α : Type} {idOf : α → ElementId} {arena : Arena α}
    {index : OrderedMap ElementId Nat} (h : Indexed idOf arena index) {ids : List Value}
    {slot : Nat} (hm : slot ∈ selectSlots arena index ids) : ∃ r, arena.get? slot = some r := by
  unfold selectSlots at hm
  split at hm
  · exact (Arena.mem_live_slots arena slot).mp hm
  · obtain ⟨v, -, hv⟩ := List.mem_filterMap.mp hm
    exact findSlot?_live h hv

theorem WellFormed.selectVertices (hw : g.WellFormed) (ids : List Value) :
    g.selectVertices ids =
      .ok ((selectSlots g.vertices g.vertexIndex ids).filterMap
        fun slot => (g.vertexIn? slot).map .vertex) := by
  refine mapM_eq_ok_filterMap _ fun slot hm => ?_
  obtain ⟨r, hr⟩ := mem_selectSlots hw.vertices_indexed hm
  exact ⟨.vertex r.reference, by rw [vertexIn?_of_live hr]; rfl, by rw [vertexAt_of_live hr]; rfl⟩

theorem WellFormed.selectEdges (hw : g.WellFormed) (ids : List Value) :
    g.selectEdges ids =
      .ok ((selectSlots g.edges g.edgeIndex ids).filterMap
        fun slot => (g.edgeIn? slot).map .edge) := by
  refine mapM_eq_ok_filterMap _ fun slot hm => ?_
  obtain ⟨e, he⟩ := mem_selectSlots hw.edges_indexed hm
  obtain ⟨edge, hin, hat, -⟩ := hw.edgeAt_of_live he
  exact ⟨.edge edge, by rw [hin]; rfl, by rw [hat]; rfl⟩

/-! ## Following edges -/

theorem mem_edgesAt (g : Graph) (side : Side) (labels : List String) (vertex slot : Nat)
    (e : EdgeRecord) :
    (slot, e) ∈ g.edgesAt side labels vertex ↔
      g.edges.get? slot = some e ∧ e.anchor side = vertex ∧ admits labels e.label = true := by
  simp [edgesAt, List.mem_filter, Arena.mem_live]

/-- The vertices at the far ends of the admitted edges on one side of a vertex, by edge slot. -/
def neighbourhood (g : Graph) (side : Side) (labels : List String) (v : Vertex) : List Vertex :=
  match g.vertexIndex.get? v.id with
  | none => []
  | some slot => (g.edgesAt side labels slot).filterMap fun p => g.vertexIn? (p.2.opposite side)

/-- The admitted edges on one side of a vertex, by slot. -/
def incidence (g : Graph) (side : Side) (labels : List String) (v : Vertex) : List Edge :=
  match g.vertexIndex.get? v.id with
  | none => []
  | some slot => (g.edgesAt side labels slot).filterMap fun p => g.edgeIn? p.1

/-- The vertices one hop away; both directions means outgoing edges first. -/
def around (g : Graph) (direction : Direction) (labels : List String) (v : Vertex) : List Vertex :=
  match direction with
  | .along side => g.neighbourhood side labels v
  | .both => g.neighbourhood .outgoing labels v ++ g.neighbourhood .incoming labels v

theorem WellFormed.neighbours (hw : g.WellFormed) (side : Side) (labels : List String)
    (v : Vertex) :
    g.neighbours side labels (.vertex v) = .ok ((g.neighbourhood side labels v).map .vertex) := by
  have hstart : g.walkStart (.vertex v) = .ok (g.vertexIndex.get? v.id) := rfl
  unfold Graph.neighbours neighbourhood
  rw [hstart]
  cases g.vertexIndex.get? v.id with
  | none => rfl
  | some slot =>
      rw [List.map_filterMap]
      refine mapM_eq_ok_filterMap _ ?_
      intro p hm
      rcases p with ⟨s, e⟩
      obtain ⟨r, hr⟩ := hw.opposite_live ((mem_edgesAt g side labels slot s e).mp hm).1 side
      have hin := vertexIn?_of_live hr
      have hat := vertexAt_of_live hr
      exact ⟨.vertex r.reference, by simp [hin], by simp [hat, Except.map]⟩

theorem WellFormed.incidentEdges (hw : g.WellFormed) (side : Side) (labels : List String)
    (v : Vertex) :
    g.incidentEdges side labels (.vertex v) = .ok ((g.incidence side labels v).map .edge) := by
  have hstart : g.walkStart (.vertex v) = .ok (g.vertexIndex.get? v.id) := rfl
  unfold Graph.incidentEdges incidence
  rw [hstart]
  cases g.vertexIndex.get? v.id with
  | none => rfl
  | some slot =>
      rw [List.map_filterMap]
      refine mapM_eq_ok_filterMap _ ?_
      intro p hm
      rcases p with ⟨s, e⟩
      obtain ⟨edge, hin, hat, -⟩ := hw.edgeAt_of_live ((mem_edgesAt g side labels slot s e).mp hm).1
      exact ⟨.edge edge, by simp [hin], by simp [hat, Except.map]⟩

theorem WellFormed.hop (hw : g.WellFormed) (direction : Direction) (labels : List String)
    (v : Vertex) :
    g.hop direction labels (.vertex v) = .ok ((g.around direction labels v).map .vertex) := by
  cases direction with
  | along side => exact hw.neighbours side labels v
  | both =>
      unfold Graph.hop around
      rw [hw.neighbours, hw.neighbours, List.map_append]
      rfl

theorem WellFormed.endpoint (hw : g.WellFormed) (side : Side) (edge : Edge) :
    ∃ vs : List Vertex, g.endpoint side (.edge edge) = .ok (vs.map .vertex) := by
  simp only [Graph.endpoint]
  cases hb : (g.edgeIndex.get? edge.id).bind g.edges.get? with
  | none => exact ⟨[], rfl⟩
  | some e =>
      obtain ⟨slot, -, he⟩ := Option.bind_eq_some_iff.mp hb
      obtain ⟨r, hr⟩ := hw.anchor_live slot e he side
      exact ⟨[r.reference], by simp only [vertexAt_of_live hr, Except.map]; rfl⟩

/-! ## Failures -/

theorem element_error {step : String} {v : Value} {err : EvaluationError}
    (h : g.element step v = .error err) : err.isOrdinary = true := by
  unfold element at h
  split at h
  · cases h
  · cases h
    rfl

theorem WellFormed.selectVertices_error (hw : g.WellFormed) {ids : List Value}
    {err : EvaluationError} (h : g.selectVertices ids = .error err) : err.isOrdinary = true := by
  rw [hw.selectVertices] at h
  cases h

theorem WellFormed.selectEdges_error (hw : g.WellFormed) {ids : List Value} {err : EvaluationError}
    (h : g.selectEdges ids = .error err) : err.isOrdinary = true := by
  rw [hw.selectEdges] at h
  cases h

theorem WellFormed.neighbours_error (hw : g.WellFormed) {side : Side} {labels : List String}
    {v : Value} {err : EvaluationError} (h : g.neighbours side labels v = .error err) :
    err.isOrdinary = true := by
  cases v
  case vertex w =>
    rw [hw.neighbours] at h
    cases h
  all_goals
    cases h
    rfl

theorem WellFormed.hop_error (hw : g.WellFormed) {direction : Direction} {labels : List String}
    {v : Value} {err : EvaluationError} (h : g.hop direction labels v = .error err) :
    err.isOrdinary = true := by
  cases direction with
  | along side => exact hw.neighbours_error h
  | both =>
      unfold Graph.hop at h
      cases hout : g.neighbours .outgoing labels v with
      | error e =>
          rw [hout] at h
          cases h
          exact hw.neighbours_error hout
      | ok out =>
          cases hin : g.neighbours .incoming labels v with
          | error e =>
              rw [hout, hin] at h
              cases h
              exact hw.neighbours_error hin
          | ok into =>
              rw [hout, hin] at h
              cases h

theorem WellFormed.incidentEdges_error (hw : g.WellFormed) {side : Side} {labels : List String}
    {v : Value} {err : EvaluationError} (h : g.incidentEdges side labels v = .error err) :
    err.isOrdinary = true := by
  cases v
  case vertex w =>
    rw [hw.incidentEdges] at h
    cases h
  all_goals
    cases h
    rfl

theorem WellFormed.endpoint_error (hw : g.WellFormed) {side : Side} {v : Value}
    {err : EvaluationError} (h : g.endpoint side v = .error err) : err.isOrdinary = true := by
  cases v
  case edge e =>
    obtain ⟨vs, hvs⟩ := hw.endpoint side e
    rw [hvs] at h
    cases h
  all_goals
    cases h
    rfl

theorem valueMap_error {tokens : Bool} {keys : List String} {v : Value} {err : EvaluationError}
    (h : g.valueMap tokens keys v = .error err) : err.isOrdinary = true := by
  unfold Graph.valueMap at h
  cases he : g.element "valueMap" v with
  | error e =>
      rw [he] at h
      cases h
      exact element_error he
  | ok e =>
      rw [he] at h
      cases h

theorem WellFormed.renameVertex_error (hw : g.WellFormed) {old new : ElementId}
    {err : EvaluationError} (h : g.renameVertex old new = .error err) : err.isOrdinary = true := by
  unfold Graph.renameVertex vertexSlot at h
  cases hs : g.vertexIndex.get? old with
  | none =>
      simp only [hs, bind, Except.bind] at h
      cases h
      rfl
  | some slot =>
      obtain ⟨r, hr, -⟩ := hw.vertices_indexed.live_of_get? hs
      simp only [hs, bind, Except.bind] at h
      split at h
      · rw [vertexAt_of_live hr] at h
        cases h
      · split at h
        · cases h
          rfl
        · -- the renamed vertex stays in its slot
          have hat : (g.vertices.modify slot fun q => { q with id := new }).get? slot =
              some { r with id := new } := by
            rw [Arena.get?_modify, if_pos rfl, hr]
            rfl
          simp only [vertexAt, hat] at h
          cases h

end Graph

end GraphGateway
