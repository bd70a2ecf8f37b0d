import GraphGateway.Proofs.Except
import GraphGateway.Proofs.Filter.Meaning

/-!
# Growing graphs

A graph with one more vertex, properties and all, and a graph with one more edge.
Adding a vertex and writing to it step by step comes to adding it as it is in the
end. Nothing that was there before is touched, and no vertex has more edges than
before, but for the ends of a new edge.
-/

namespace GraphGateway

/-- Two identifiers that lead to one slot are the same. -/
theorem Indexed.id_unique {α : Type} {idOf : α → ElementId} {arena : Arena α}
    {index : OrderedMap ElementId Nat} (h : Indexed idOf arena index) {id other : ElementId}
    {slot : Nat} (hid : index.get? id = some slot) (hother : index.get? other = some slot) :
    id = other := by
  obtain ⟨r, hr, rfl⟩ := h.live_of_get? hid
  obtain ⟨q, hq, rfl⟩ := h.live_of_get? hother
  rw [hr] at hq
  cases hq
  rfl

namespace Graph

variable {g : Graph}

theorem WellFormed.recordOf?_eq_some (hw : g.WellFormed) {id : ElementId}
    {r : VertexRecord} (h : g.recordOf? id = some r) :
    r.id = id ∧ r.properties.Distinct ∧
      ∃ slot, g.vertexIndex.get? id = some slot ∧ g.vertices.get? slot = some r := by
  obtain ⟨slot, hslot, hr⟩ := Option.bind_eq_some_iff.mp h
  obtain ⟨q, hq, hid⟩ := hw.vertices_indexed.live_of_get? hslot
  rw [hr] at hq
  cases hq
  exact ⟨hid, hw.vertex_properties slot r hr, slot, hslot, hr⟩

theorem WellFormed.recordOf?_of_live (hw : g.WellFormed) {slot : Nat} {r : VertexRecord}
    (hr : g.vertices.get? slot = some r) : g.recordOf? r.id = some r := by
  rw [recordOf?, hw.vertices_indexed.get?_of_live hr]
  exact hr

theorem WellFormed.recordOf?_eq_none (hw : g.WellFormed) (id : ElementId) :
    g.recordOf? id = none ↔ g.vertexIndex.contains id = false := by
  unfold recordOf? OrderedMap.contains
  cases hslot : g.vertexIndex.get? id with
  | none => simp
  | some slot =>
      obtain ⟨r, hr, -⟩ := hw.vertices_indexed.live_of_get? hslot
      simp [hr]

/-! ## One more vertex -/

def withVertex (g : Graph) (r : VertexRecord) : Graph :=
  { g with
    vertices := (g.vertices.insert r).1
    vertexIndex := g.vertexIndex.insert r.id (g.vertices.insert r).2 }

theorem insertVertex_new {id : ElementId} (h : g.vertexIndex.contains id = false)
    (label : String) :
    g.insertVertex id label = .ok (⟨id, label⟩, g.withVertex ⟨id, label, .empty⟩) := by
  unfold insertVertex
  rw [if_neg (by simp [h])]
  rfl

theorem get?_withVertex (g : Graph) (r : VertexRecord) (id : ElementId) :
    (g.withVertex r).vertexIndex.get? id =
      if r.id = id then some (g.vertices.insert r).2 else g.vertexIndex.get? id :=
  OrderedMap.get?_insert g.vertexIndex r.id id (g.vertices.insert r).2

theorem contains_withVertex (g : Graph) (r : VertexRecord) (id : ElementId) :
    (g.withVertex r).vertexIndex.contains id = true ↔
      r.id = id ∨ g.vertexIndex.contains id = true := by
  unfold OrderedMap.contains
  rw [get?_withVertex]
  by_cases h : r.id = id <;> simp [h]

theorem vertexSlot_withVertex (g : Graph) (r : VertexRecord) :
    (g.withVertex r).vertexSlot r.id = .ok (g.vertices.insert r).2 := by
  rw [vertexSlot_eq_ok_iff, get?_withVertex, if_pos rfl]

/-- Writing to the vertex that was added last is adding it with the property. -/
theorem setVertexProperty_withVertex (g : Graph) (r : VertexRecord) (key : String)
    (value : Value) :
    (g.withVertex r).setVertexProperty r.id key value =
      .ok (g.withVertex { r with properties := r.properties.insert key value }) := by
  have hmodify := g.vertices.modify_insert r fun q =>
    { q with properties := q.properties.insert key value }
  have hslot := g.vertices.insert_slot r { r with properties := r.properties.insert key value }
  unfold setVertexProperty
  rw [vertexSlot_withVertex, Except.ok_bind]
  simp only [withVertex, hmodify]
  rw [hslot]

/-- Renaming the vertex that was added last is adding it under the other name. -/
theorem renameVertex_withVertex (hw : g.WellFormed) {r : VertexRecord} {new : ElementId}
    (hr : g.vertexIndex.contains r.id = false) (hnew : g.vertexIndex.contains new = false)
    (hne : r.id ≠ new) :
    (g.withVertex r).renameVertex r.id new =
      .ok (⟨new, r.label⟩, g.withVertex { r with id := new }) := by
  have hmodify := g.vertices.modify_insert r fun q => { q with id := new }
  have hslot := g.vertices.insert_slot r { r with id := new }
  have herase := OrderedMap.erase_insert hr (g.vertices.insert r).2
  have hfree : ¬ (g.withVertex r).vertexIndex.contains new = true := by
    rw [contains_withVertex]
    simp [hne, hnew]
  have hlive : (g.vertices.insert { r with id := new }).1.get? (g.vertices.insert r).2 =
      some { r with id := new } := by
    rw [hw.vertices_indexed.arena_wellFormed.get?_insert, hslot, if_pos rfl]
  unfold renameVertex
  rw [vertexSlot_withVertex, Except.ok_bind, if_neg hne, if_neg hfree]
  simp only [withVertex, hmodify, herase, vertexAt, hlive]
  rw [Except.ok_bind, hslot]

theorem WellFormed.vertices_withVertex (hw : g.WellFormed) (r : VertexRecord) {slot : Nat}
    {q : VertexRecord} (hq : g.vertices.get? slot = some q) :
    (g.withVertex r).vertices.get? slot = some q := by
  have harena := hw.vertices_indexed.arena_wellFormed
  have hnew := harena.get?_insert_slot r
  have hne : ¬ (g.vertices.insert r).2 = slot := by
    intro heq
    rw [heq, hq] at hnew
    cases hnew
  show (g.vertices.insert r).1.get? slot = some q
  rw [harena.get?_insert, if_neg hne, hq]

theorem WellFormed.recordOf?_withVertex (hw : g.WellFormed) (r : VertexRecord) (id : ElementId) :
    (g.withVertex r).recordOf? id = if r.id = id then some r else g.recordOf? id := by
  unfold recordOf?
  rw [get?_withVertex]
  by_cases h : r.id = id
  · have hlive : (g.withVertex r).vertices.get? (g.vertices.insert r).2 = some r := by
      show (g.vertices.insert r).1.get? (g.vertices.insert r).2 = some r
      rw [hw.vertices_indexed.arena_wellFormed.get?_insert, if_pos rfl]
    simp [h, hlive]
  · rw [if_neg h, if_neg h]
    cases hslot : g.vertexIndex.get? id with
    | none => rfl
    | some slot =>
        obtain ⟨q, hq, -⟩ := hw.vertices_indexed.live_of_get? hslot
        simp [hq, hw.vertices_withVertex r hq]

theorem vertexCount_withVertex {r : VertexRecord} (h : g.vertexIndex.contains r.id = false) :
    (g.withVertex r).vertexCount = g.vertexCount + 1 := by
  have hnone : OrderedMap.lookup r.id g.vertexIndex.entries = none := by
    simpa [OrderedMap.contains, OrderedMap.get?] using h
  have hput := OrderedMap.put_of_not_mem ((OrderedMap.lookup_eq_none_iff _ _).mp hnone)
    (g.vertices.insert r).2
  simp [vertexCount, withVertex, OrderedMap.insert, OrderedMap.size, hput]

/-- A graph has gained one vertex; every other vertex and all edges are as they were. -/
structure Gains (g : Graph) (r : VertexRecord) (next : Graph) : Prop where
  absent : g.recordOf? r.id = none
  present : next.recordOf? r.id = some r
  others : ∀ id, id ≠ r.id → next.recordOf? id = g.recordOf? id
  count : next.vertexCount = g.vertexCount + 1
  slots : ∀ slot q, g.vertices.get? slot = some q → next.vertices.get? slot = some q
  edges : next.edges = g.edges
  edgeIndex : next.edgeIndex = g.edgeIndex
  newest : next.newest = g.newest

theorem WellFormed.gains_withVertex (hw : g.WellFormed) {r : VertexRecord}
    (hr : g.vertexIndex.contains r.id = false) : g.Gains r (g.withVertex r) where
  absent := (hw.recordOf?_eq_none r.id).mpr hr
  present := by rw [hw.recordOf?_withVertex, if_pos rfl]
  others id hne := by rw [hw.recordOf?_withVertex, if_neg (Ne.symm hne)]
  count := vertexCount_withVertex hr
  slots _ _ hq := hw.vertices_withVertex r hq
  edges := rfl
  edgeIndex := rfl
  newest := rfl

/-! ## One more edge -/

def withEdge (g : Graph) (e : EdgeRecord) : Graph :=
  { g with
    edges := (g.edges.insert e).1
    edgeIndex := g.edgeIndex.insert e.id (g.edges.insert e).2
    newest := (g.edges.insert e).2 :: g.newest }

theorem insertEdge_live {id source target : ElementId} {s t : Nat}
    (hs : g.vertexIndex.get? source = some s) (ht : g.vertexIndex.get? target = some t)
    (label : String) :
    g.insertEdge id label source target =
      .ok (⟨id, label, source, target⟩, g.withEdge ⟨id, label, .empty, s, t⟩) := by
  have hsource := (vertexSlot_eq_ok_iff g source s).mpr hs
  have htarget := (vertexSlot_eq_ok_iff g target t).mpr ht
  unfold insertEdge
  rw [hsource, Except.ok_bind, htarget]
  rfl

/-- An end of the edge that was added last is where its record says. -/
theorem WellFormed.endpoint_withEdge (hw : g.WellFormed) {e : EdgeRecord} {edge : Edge}
    (hid : edge.id = e.id) {side : Side} {r : VertexRecord}
    (hr : g.vertices.get? (e.anchor side) = some r) :
    (g.withEdge e).endpoint side (.edge edge) = .ok [.vertex r.reference] := by
  have hslot : (g.withEdge e).edgeIndex.get? edge.id = some (g.edges.insert e).2 := by
    show (g.edgeIndex.insert e.id _).get? edge.id = _
    rw [OrderedMap.get?_insert, if_pos hid.symm]
  have hlive : (g.withEdge e).edges.get? (g.edges.insert e).2 = some e := by
    show (g.edges.insert e).1.get? (g.edges.insert e).2 = some e
    rw [hw.edges_indexed.arena_wellFormed.get?_insert, if_pos rfl]
  have hat : (g.withEdge e).vertexAt (e.anchor side) = .ok r.reference := vertexAt_of_live hr
  simp [Graph.endpoint, hslot, hlive, hat, Except.map]

/-! ## Joined vertices -/

/-- A new vertex is not joined to any other. -/
theorem WellFormed.joins_withVertex (hw : g.WellFormed) (r : VertexRecord) (label : String)
    (v w : ElementId) : (g.withVertex r).Joins label v w ↔ g.Joins label v w := by
  have hsame : ∀ {slot e} (side : Side) {q : VertexRecord}, g.edges.get? slot = some e →
      (g.withVertex r).vertices.get? (e.anchor side) = some q →
        g.vertices.get? (e.anchor side) = some q := by
    intro slot e side q he hq
    obtain ⟨old, hold⟩ := hw.anchor_live slot e he side
    rw [hw.vertices_withVertex r hold] at hq
    rw [hold, hq]
  constructor
  · intro h
    obtain ⟨slot, e, p, q, he, hlabel, hp, hpid, hq, hqid⟩ := h
    exact ⟨slot, e, p, q, he, hlabel, hsame .outgoing he hp, hpid, hsame .incoming he hq, hqid⟩
  · intro h
    obtain ⟨slot, e, p, q, he, hlabel, hp, hpid, hq, hqid⟩ := h
    exact ⟨slot, e, p, q, he, hlabel, hw.vertices_withVertex r hp, hpid,
      hw.vertices_withVertex r hq, hqid⟩

/-- A new edge joins the vertices at its ends, and no others. -/
theorem WellFormed.joins_withEdge (hw : g.WellFormed) {source target : ElementId} {near far : Nat}
    (hs : g.vertexIndex.get? source = some near) (ht : g.vertexIndex.get? target = some far)
    (edge : ElementId) (label wanted : String) (v w : ElementId) :
    (g.withEdge ⟨edge, label, .empty, near, far⟩).Joins wanted v w ↔
      g.Joins wanted v w ∨ label = wanted ∧ v = source ∧ w = target := by
  have harena := hw.edges_indexed.arena_wellFormed
  obtain ⟨p, hp, hpid⟩ := hw.vertices_indexed.live_of_get? hs
  obtain ⟨q, hq, hqid⟩ := hw.vertices_indexed.live_of_get? ht
  have hedges : ∀ slot, (g.withEdge ⟨edge, label, .empty, near, far⟩).edges.get? slot =
      if (g.edges.insert ⟨edge, label, .empty, near, far⟩).2 = slot then
        some ⟨edge, label, .empty, near, far⟩ else g.edges.get? slot :=
    fun slot => harena.get?_insert _ slot
  constructor
  · intro h
    obtain ⟨slot, e, p', q', he, hlabel, hp', hpid', hq', hqid'⟩ := h
    rw [hedges] at he
    split at he
    · obtain rfl := Option.some.inj he
      obtain rfl := Option.some.inj (hp'.symm.trans hp)
      obtain rfl := Option.some.inj (hq'.symm.trans hq)
      exact .inr ⟨hlabel, hpid'.symm.trans hpid, hqid'.symm.trans hqid⟩
    · exact .inl ⟨slot, e, p', q', he, hlabel, hp', hpid', hq', hqid'⟩
  · intro h
    rcases h with ⟨slot, e, p', q', he, hlabel, hp', hpid', hq', hqid'⟩ | ⟨rfl, rfl, rfl⟩
    · have hne : ¬ (g.edges.insert ⟨edge, label, .empty, near, far⟩).2 = slot := by
        intro heq
        have hnone := harena.get?_insert_slot ⟨edge, label, .empty, near, far⟩
        rw [heq, he] at hnone
        cases hnone
      exact ⟨slot, e, p', q', by rw [hedges, if_neg hne, he], hlabel, hp', hpid', hq', hqid'⟩
    · exact ⟨_, ⟨edge, label, .empty, near, far⟩, p, q, by rw [hedges, if_pos rfl], rfl, hp, hpid,
        hq, hqid⟩

/-! ## Degrees -/

/-- How many edges with admitted labels a vertex has on one side. -/
def degree (g : Graph) (side : Side) (labels : List String) (id : ElementId) : Nat :=
  match g.vertexIndex.get? id with
  | none => 0
  | some slot => (g.edgesAt side labels slot).length

theorem WellFormed.length_neighbourhood (hw : g.WellFormed) (side : Side) (labels : List String)
    (v : Vertex) : (g.neighbourhood side labels v).length = g.degree side labels v.id := by
  unfold neighbourhood degree
  cases g.vertexIndex.get? v.id with
  | none => rfl
  | some slot =>
      -- the far end of every edge is occupied
      have hall : ∀ p ∈ g.edgesAt side labels slot, (g.vertexIn? (p.2.opposite side)).isSome := by
        intro p hp
        obtain ⟨r, hr⟩ := hw.opposite_live ((mem_edgesAt g side labels slot p.1 p.2).mp hp).1 side
        simp [vertexIn?, hr]
      rw [List.length_filterMap_eq_countP]
      exact List.countP_eq_length.mpr hall

/-- A new vertex has no edges yet, and brings none. -/
theorem WellFormed.degree_withVertex (hw : g.WellFormed) {r : VertexRecord}
    (hr : g.vertexIndex.contains r.id = false) (side : Side) (labels : List String)
    (id : ElementId) : (g.withVertex r).degree side labels id = g.degree side labels id := by
  have hedges : ∀ slot, (g.withVertex r).edgesAt side labels slot = g.edgesAt side labels slot :=
    fun slot => rfl
  unfold degree
  rw [get?_withVertex]
  by_cases h : r.id = id
  · have hnone : g.vertexIndex.get? id = none := by simpa [OrderedMap.contains, h] using hr
    have hnil : g.edgesAt side labels (g.vertices.insert r).2 = [] := by
      refine List.eq_nil_iff_forall_not_mem.mpr fun p hp => ?_
      obtain ⟨he, hanchor, -⟩ := (mem_edgesAt g side labels _ p.1 p.2).mp hp
      obtain ⟨q, hq⟩ := hw.anchor_live p.1 p.2 he side
      rw [hanchor, hw.vertices_indexed.arena_wellFormed.get?_insert_slot] at hq
      cases hq
    simp [h, hnone, hedges, hnil]
  · simp only [h, if_false, hedges]

/-- A new edge counts at its ends only. -/
theorem WellFormed.degree_withEdge (hw : g.WellFormed) (e : EdgeRecord) (side : Side)
    (labels : List String) (id : ElementId) :
    (g.withEdge e).degree side labels id =
      g.degree side labels id +
        if g.vertexIndex.get? id = some (e.anchor side) ∧ admits labels e.label = true then 1
        else 0 := by
  have hlive := hw.edges_indexed.arena_wellFormed.live_insert e
  have hcount : ∀ slot, ((g.withEdge e).edgesAt side labels slot).length =
      (g.edgesAt side labels slot).length +
        if e.anchor side = slot ∧ admits labels e.label = true then 1 else 0 := by
    intro slot
    have hperm := (hlive.filter fun p => p.2.anchor side == slot && admits labels p.2.label)
    have hlength := hperm.length_eq
    have hends : (e.anchor side == slot && admits labels e.label) = true ↔
        e.anchor side = slot ∧ admits labels e.label = true := by simp
    rw [List.filter_cons] at hlength
    by_cases h : e.anchor side = slot ∧ admits labels e.label = true
    · rw [if_pos (hends.mpr h)] at hlength
      rw [if_pos h]
      exact hlength
    · rw [if_neg fun heq => h (hends.mp heq)] at hlength
      rw [if_neg h]
      exact hlength
  unfold degree
  have hget : (g.withEdge e).vertexIndex.get? id = g.vertexIndex.get? id := rfl
  rw [hget]
  cases g.vertexIndex.get? id with
  | none => simp
  | some slot => simp only [hcount, Option.some.injEq, eq_comm]

/-- A new edge counts once, for its label and at the vertex that it leads to. -/
theorem WellFormed.degree_incoming (hw : g.WellFormed) {target : ElementId} {far : Nat}
    (ht : g.vertexIndex.get? target = some far) (edge : ElementId) (label wanted : String)
    (near : Nat) (id : ElementId) :
    (g.withEdge ⟨edge, label, .empty, near, far⟩).degree .incoming [wanted] id =
      g.degree .incoming [wanted] id + if label = wanted ∧ id = target then 1 else 0 := by
  have hend : g.vertexIndex.get? id = some far ↔ id = target := by
    constructor
    · intro hid
      exact hw.vertices_indexed.id_unique hid ht
    · intro heq
      rw [heq, ht]
  rw [hw.degree_withEdge]
  simp [EdgeRecord.anchor, hend, admits, and_comm]

end Graph

end GraphGateway
