import GraphGateway.Graph.Walk
import GraphGateway.Proofs.Graph.Indexed

/-!
# Well-formed graphs

Both indexes are in step with their arenas, every edge joins two occupied slots,
property maps hold each key once, and the list of edges by age names exactly the
edges there are. Every operation that changes a graph keeps this, whether it
adds, renames or writes to an element or removes a vertex with all its edges.
-/

namespace GraphGateway

def VertexRecord.reference (r : VertexRecord) : Vertex :=
  ⟨r.id, r.label⟩

namespace Graph

/-- What every operation on a graph keeps. -/
structure WellFormed (g : Graph) : Prop where
  vertices_indexed : Indexed VertexRecord.id g.vertices g.vertexIndex
  edges_indexed : Indexed EdgeRecord.id g.edges g.edgeIndex
  anchor_live : ∀ slot e, g.edges.get? slot = some e →
    ∀ side, ∃ r, g.vertices.get? (e.anchor side) = some r
  vertex_properties : ∀ slot r, g.vertices.get? slot = some r → r.properties.Distinct
  edge_properties : ∀ slot e, g.edges.get? slot = some e → e.properties.Distinct
  mem_newest : ∀ slot, slot ∈ g.newest ↔ ∃ e, g.edges.get? slot = some e
  newest_nodup : g.newest.Nodup

theorem WellFormed.empty : Graph.empty.WellFormed :=
  ⟨.empty, .empty, by simp [Graph.empty], by simp [Graph.empty], by simp [Graph.empty],
    by simp [Graph.empty], List.nodup_nil⟩

variable {g : Graph}

/-! ## Slots -/

theorem vertexSlot_eq_ok_iff (g : Graph) (id : ElementId) (slot : Nat) :
    g.vertexSlot id = .ok slot ↔ g.vertexIndex.get? id = some slot := by
  unfold vertexSlot
  cases g.vertexIndex.get? id <;> simp

theorem edgeSlot_eq_ok_iff (g : Graph) (id : ElementId) (slot : Nat) :
    g.edgeSlot id = .ok slot ↔ g.edgeIndex.get? id = some slot := by
  unfold edgeSlot
  cases g.edgeIndex.get? id <;> simp

theorem vertexAt_of_live {slot : Nat} {r : VertexRecord} (hr : g.vertices.get? slot = some r) :
    g.vertexAt slot = .ok r.reference := by
  simp [vertexAt, hr, VertexRecord.reference]

theorem EdgeRecord.opposite_eq_anchor (e : EdgeRecord) (side : Side) :
    ∃ other, e.opposite side = e.anchor other := by
  cases side
  · exact ⟨.incoming, rfl⟩
  · exact ⟨.outgoing, rfl⟩

theorem WellFormed.opposite_live (hw : g.WellFormed) {slot : Nat} {e : EdgeRecord}
    (he : g.edges.get? slot = some e) (side : Side) :
    ∃ r, g.vertices.get? (e.opposite side) = some r := by
  obtain ⟨other, hother⟩ := EdgeRecord.opposite_eq_anchor e side
  rw [hother]
  exact hw.anchor_live slot e he other

/-! ## Adding elements -/

theorem insertVertex_eq_ok {id : ElementId} {label : String} {v : Vertex} {next : Graph}
    (h : g.insertVertex id label = .ok (v, next)) :
    g.vertexIndex.contains id = false ∧ v = ⟨id, label⟩ ∧
      next =
        { g with
          vertices := (g.vertices.insert ⟨id, label, .empty⟩).1
          vertexIndex := g.vertexIndex.insert id (g.vertices.insert ⟨id, label, .empty⟩).2 } := by
  unfold insertVertex at h
  by_cases hc : g.vertexIndex.contains id = true
  · rw [if_pos hc] at h
    cases h
  · rw [if_neg hc] at h
    cases h
    exact ⟨by simpa using hc, rfl, rfl⟩

theorem WellFormed.insertVertex (hw : g.WellFormed) {id : ElementId} {label : String} {v : Vertex}
    {next : Graph} (h : g.insertVertex id label = .ok (v, next)) : next.WellFormed := by
  obtain ⟨hc, rfl, rfl⟩ := insertVertex_eq_ok h
  have hget := hw.vertices_indexed.arena_wellFormed.get?_insert ⟨id, label, .empty⟩
  have hslot := hw.vertices_indexed.arena_wellFormed.get?_insert_slot ⟨id, label, .empty⟩
  refine ⟨hw.vertices_indexed.insert _ hc, hw.edges_indexed, ?_, ?_, hw.edge_properties,
    hw.mem_newest, hw.newest_nodup⟩
  · intro slot e he side
    obtain ⟨r, hr⟩ := hw.anchor_live slot e he side
    refine ⟨r, ?_⟩
    rw [hget, if_neg, hr]
    intro heq
    rw [heq, hr] at hslot
    cases hslot
  · intro slot r hr
    rw [hget] at hr
    split at hr
    · cases hr
      exact .empty
    · exact hw.vertex_properties slot r hr

theorem insertEdge_eq_ok {id source target : ElementId} {label : String} {e : Edge} {next : Graph}
    (h : g.insertEdge id label source target = .ok (e, next)) :
    ∃ s t, g.vertexIndex.get? source = some s ∧ g.vertexIndex.get? target = some t ∧
      e = ⟨id, label, source, target⟩ ∧
      next =
        { g with
          edges := (g.edges.insert ⟨id, label, .empty, s, t⟩).1
          edgeIndex := g.edgeIndex.insert id (g.edges.insert ⟨id, label, .empty, s, t⟩).2
          newest := (g.edges.insert ⟨id, label, .empty, s, t⟩).2 :: g.newest } := by
  unfold insertEdge at h
  cases hs : g.vertexSlot source with
  | error err => rw [hs] at h; cases h
  | ok s =>
      cases ht : g.vertexSlot target with
      | error err => rw [hs, ht] at h; cases h
      | ok t =>
          rw [hs, ht] at h
          cases h
          exact ⟨s, t, (vertexSlot_eq_ok_iff g source s).mp hs,
            (vertexSlot_eq_ok_iff g target t).mp ht, rfl, rfl⟩

theorem WellFormed.insertEdge (hw : g.WellFormed) {id source target : ElementId} {label : String}
    {e : Edge} {next : Graph} (hfresh : g.edgeIndex.contains id = false)
    (h : g.insertEdge id label source target = .ok (e, next)) : next.WellFormed := by
  obtain ⟨s, t, hs, ht, rfl, rfl⟩ := insertEdge_eq_ok h
  obtain ⟨sr, hsr, -⟩ := hw.vertices_indexed.live_of_get? hs
  obtain ⟨tr, htr, -⟩ := hw.vertices_indexed.live_of_get? ht
  have hget := hw.edges_indexed.arena_wellFormed.get?_insert ⟨id, label, .empty, s, t⟩
  have hslot := hw.edges_indexed.arena_wellFormed.get?_insert_slot ⟨id, label, .empty, s, t⟩
  refine ⟨hw.vertices_indexed, hw.edges_indexed.insert _ hfresh, ?_, hw.vertex_properties,
    ?_, ?_, ?_⟩
  · intro slot r hr side
    rw [hget] at hr
    split at hr
    · cases hr
      cases side
      · exact ⟨sr, hsr⟩
      · exact ⟨tr, htr⟩
    · exact hw.anchor_live slot r hr side
  · intro slot r hr
    rw [hget] at hr
    split at hr
    · cases hr
      exact .empty
    · exact hw.edge_properties slot r hr
  · intro slot
    rw [hget, List.mem_cons, hw.mem_newest]
    by_cases hs : (g.edges.insert ⟨id, label, .empty, s, t⟩).2 = slot
    · simp [hs]
    · have hne : ¬ slot = (g.edges.insert ⟨id, label, .empty, s, t⟩).2 := fun heq => hs heq.symm
      simp [hs, hne]
  · refine List.nodup_cons.mpr ⟨?_, hw.newest_nodup⟩
    rw [hw.mem_newest, hslot]
    intro hfound
    rcases hfound with ⟨r, hr⟩
    cases hr

/-! ## Writing properties -/

theorem setVertexProperty_eq_ok {id : ElementId} {key : String} {value : Value} {next : Graph}
    (h : g.setVertexProperty id key value = .ok next) :
    ∃ slot, g.vertexIndex.get? id = some slot ∧
      next =
        { g with
          vertices := g.vertices.modify slot fun r =>
            { r with properties := r.properties.insert key value } } := by
  unfold setVertexProperty at h
  cases hs : g.vertexSlot id with
  | error err => rw [hs] at h; cases h
  | ok slot =>
      rw [hs] at h
      cases h
      exact ⟨slot, (vertexSlot_eq_ok_iff g id slot).mp hs, rfl⟩

theorem setEdgeProperty_eq_ok {id : ElementId} {key : String} {value : Value} {next : Graph}
    (h : g.setEdgeProperty id key value = .ok next) :
    ∃ slot, g.edgeIndex.get? id = some slot ∧
      next =
        { g with
          edges := g.edges.modify slot fun r =>
            { r with properties := r.properties.insert key value } } := by
  unfold setEdgeProperty at h
  cases hs : g.edgeSlot id with
  | error err => rw [hs] at h; cases h
  | ok slot =>
      rw [hs] at h
      cases h
      exact ⟨slot, (edgeSlot_eq_ok_iff g id slot).mp hs, rfl⟩

/-- A change to one record that no part of the invariant but the properties depends on. -/
private theorem modified_live {α : Type} {arena : Arena α} (slot : Nat) (f : α → α) {other : Nat}
    {r : α} (hr : (arena.modify slot f).get? other = some r) :
    ∃ q, arena.get? other = some q ∧ (r = q ∨ r = f q) := by
  rw [Arena.get?_modify] at hr
  split at hr
  · obtain ⟨q, hq, rfl⟩ := Option.map_eq_some_iff.mp hr
    exact ⟨q, hq, .inr rfl⟩
  · exact ⟨r, hr, .inl rfl⟩

private theorem live_modify {α : Type} {arena : Arena α} (slot : Nat) (f : α → α) {other : Nat} :
    (∃ r, (arena.modify slot f).get? other = some r) ↔ ∃ r, arena.get? other = some r := by
  rw [Arena.get?_modify]
  split <;> simp

theorem WellFormed.setVertexProperty (hw : g.WellFormed) {id : ElementId} {key : String}
    {value : Value} {next : Graph} (h : g.setVertexProperty id key value = .ok next) :
    next.WellFormed := by
  obtain ⟨slot, -, rfl⟩ := setVertexProperty_eq_ok h
  refine ⟨hw.vertices_indexed.modify slot _ fun _ => rfl, hw.edges_indexed, ?_, ?_,
    hw.edge_properties, hw.mem_newest, hw.newest_nodup⟩
  · intro s e he side
    exact (live_modify slot _).mpr (hw.anchor_live s e he side)
  · intro s r hr
    obtain ⟨q, hq, rfl | rfl⟩ := modified_live slot _ hr
    · exact hw.vertex_properties s r hq
    · exact (hw.vertex_properties s q hq).insert key value

theorem WellFormed.setEdgeProperty (hw : g.WellFormed) {id : ElementId} {key : String}
    {value : Value} {next : Graph} (h : g.setEdgeProperty id key value = .ok next) :
    next.WellFormed := by
  obtain ⟨slot, -, rfl⟩ := setEdgeProperty_eq_ok h
  refine ⟨hw.vertices_indexed, hw.edges_indexed.modify slot _ fun _ => rfl, ?_,
    hw.vertex_properties, ?_, ?_, hw.newest_nodup⟩
  · intro s e he side
    obtain ⟨q, hq, rfl | rfl⟩ := modified_live slot _ he
    · exact hw.anchor_live s e hq side
    · exact hw.anchor_live s q hq side
  · intro s e he
    obtain ⟨q, hq, rfl | rfl⟩ := modified_live slot _ he
    · exact hw.edge_properties s e hq
    · exact (hw.edge_properties s q hq).insert key value
  · intro s
    rw [hw.mem_newest, live_modify]

theorem addVertex_eq_ok {id : ElementId} {label : String} {properties : List (String × Value)}
    {v : Vertex} {next : Graph} (h : g.addVertex id label properties = .ok (v, next)) :
    ∃ middle, g.insertVertex id label = .ok (v, middle) ∧
      middle.setVertexProperties id properties = .ok next := by
  unfold addVertex at h
  cases hi : g.insertVertex id label with
  | error err => rw [hi] at h; cases h
  | ok added =>
      obtain ⟨vertex, middle⟩ := added
      rw [hi] at h
      simp only [bind, Except.bind] at h
      cases hp : middle.setVertexProperties id properties with
      | error err => simp only [hp] at h; cases h
      | ok done =>
          simp only [hp] at h
          cases h
          exact ⟨middle, rfl, hp⟩

/-! ## Renaming a vertex -/

theorem renameVertex_eq_ok {old new : ElementId} {v : Vertex} {next : Graph}
    (h : g.renameVertex old new = .ok (v, next)) :
    ∃ slot, g.vertexIndex.get? old = some slot ∧ next.vertexAt slot = .ok v ∧
      (old = new ∧ next = g ∨
        old ≠ new ∧ g.vertexIndex.contains new = false ∧
          next =
            { g with
              vertices := g.vertices.modify slot fun r => { r with id := new }
              vertexIndex := (g.vertexIndex.erase old).insert new slot }) := by
  unfold renameVertex at h
  cases hs : g.vertexSlot old with
  | error err => rw [hs] at h; cases h
  | ok slot =>
      rw [hs] at h
      refine ⟨slot, (vertexSlot_eq_ok_iff g old slot).mp hs, ?_⟩
      simp only [bind, Except.bind] at h
      split at h
      · next hsame =>
          cases hv : g.vertexAt slot with
          | error err => simp only [hv] at h; cases h
          | ok w =>
              simp only [hv] at h
              cases h
              exact ⟨hv, .inl ⟨hsame, rfl⟩⟩
      · next hne =>
          by_cases hc : g.vertexIndex.contains new = true
          · rw [if_pos hc] at h
            cases h
          · rw [if_neg hc] at h
            split at h
            · cases h
            · next w hv =>
                cases h
                exact ⟨hv, .inr ⟨hne, by simpa using hc, rfl⟩⟩

theorem WellFormed.renameVertex (hw : g.WellFormed) {old new : ElementId} {v : Vertex}
    {next : Graph} (h : g.renameVertex old new = .ok (v, next)) : next.WellFormed := by
  obtain ⟨slot, hold, -, ⟨-, rfl⟩ | ⟨-, hnew, rfl⟩⟩ := renameVertex_eq_ok h
  · exact hw
  · refine ⟨hw.vertices_indexed.rename _ hold hnew fun _ => rfl, hw.edges_indexed, ?_, ?_,
      hw.edge_properties, hw.mem_newest, hw.newest_nodup⟩
    · intro s e he side
      exact (live_modify slot _).mpr (hw.anchor_live s e he side)
    · intro s r hr
      obtain ⟨q, hq, rfl | rfl⟩ := modified_live slot _ hr
      · exact hw.vertex_properties s r hq
      · exact hw.vertex_properties s q hq

/-! ## Removing elements -/

theorem isAnchored_eq_true_iff (g : Graph) (side : Side) (vertex edge : Nat) :
    g.isAnchored side vertex edge = true ↔
      ∃ e, g.edges.get? edge = some e ∧ e.anchor side = vertex := by
  unfold isAnchored
  rw [Option.any_eq_true]
  constructor
  · intro hfound
    rcases hfound with ⟨e, he, h⟩
    exact ⟨e, he, by simpa using h⟩
  · intro hfound
    rcases hfound with ⟨e, he, h⟩
    exact ⟨e, he, by simpa using h⟩

/-- The edges that go with a vertex are those anchored at it on some side. -/
theorem WellFormed.mem_incidentSlots (hw : g.WellFormed) (vertex edge : Nat) :
    edge ∈ g.incidentSlots vertex ↔
      ∃ e, g.edges.get? edge = some e ∧ ∃ side, e.anchor side = vertex := by
  unfold incidentSlots
  rw [List.mem_append, List.mem_filter, List.mem_filter]
  constructor
  · intro hfound
    rcases hfound with ⟨-, h⟩ | ⟨-, h⟩
    · obtain ⟨e, he, ha⟩ := (isAnchored_eq_true_iff g _ _ _).mp h
      exact ⟨e, he, _, ha⟩
    · rw [Bool.and_eq_true] at h
      obtain ⟨e, he, ha⟩ := (isAnchored_eq_true_iff g _ _ _).mp h.1
      exact ⟨e, he, _, ha⟩
  · intro hfound
    rcases hfound with ⟨e, he, side, ha⟩
    have hnew : edge ∈ g.newest := (hw.mem_newest edge).mpr ⟨e, he⟩
    have hside : g.isAnchored side vertex edge = true :=
      (isAnchored_eq_true_iff g _ _ _).mpr ⟨e, he, ha⟩
    by_cases hout : g.isAnchored .outgoing vertex edge = true
    · exact .inl ⟨hnew, hout⟩
    · cases side with
      | outgoing => exact (hout hside).elim
      | incoming => exact .inr ⟨hnew, by simp [hside, hout]⟩

theorem WellFormed.removeVertex (hw : g.WellFormed) (id : ElementId) :
    (g.removeVertex id).WellFormed := by
  unfold Graph.removeVertex
  cases hs : g.vertexIndex.get? id with
  | none => exact hw
  | some slot =>
      have hgone := Arena.get?_eraseAll (g.incidentSlots slot) g.edges
      -- an edge that stays is anchored elsewhere on both sides
      have hstays : ∀ s e, (g.edges.eraseAll (g.incidentSlots slot)).get? s = some e →
          g.edges.get? s = some e ∧ ∀ side, e.anchor side ≠ slot := by
        intro s e he
        rw [hgone] at he
        split at he
        · cases he
        · next hn =>
            refine ⟨he, fun side ha => hn ?_⟩
            exact (hw.mem_incidentSlots slot s).mpr ⟨e, he, side, ha⟩
      refine ⟨hw.vertices_indexed.erase hs, hw.edges_indexed.eraseAll _, ?_, ?_, ?_, ?_, ?_⟩
      · intro s e he side
        obtain ⟨he, hne⟩ := hstays s e he
        obtain ⟨r, hr⟩ := hw.anchor_live s e he side
        exact ⟨r, by rw [Arena.get?_erase, if_neg fun heq => hne side heq.symm, hr]⟩
      · intro s r hr
        exact hw.vertex_properties s r (Arena.get?_of_erase hr)
      · intro s e he
        exact hw.edge_properties s e (hstays s e he).1
      · intro s
        rw [List.mem_filter, hw.mem_newest, hgone]
        by_cases hm : s ∈ g.incidentSlots slot
        · simp [hm]
        · simp [hm]
      · exact hw.newest_nodup.filter _

theorem WellFormed.removeEdge (hw : g.WellFormed) (id : ElementId) :
    (g.removeEdge id).WellFormed := by
  unfold Graph.removeEdge
  cases hs : g.edgeIndex.get? id with
  | none => exact hw
  | some slot =>
      have hstays : ∀ s e, (g.edges.erase slot).get? s = some e → g.edges.get? s = some e :=
        fun _ _ => Arena.get?_of_erase
      refine ⟨hw.vertices_indexed, hw.edges_indexed.erase hs, ?_, hw.vertex_properties, ?_, ?_, ?_⟩
      · intro s e he side
        exact hw.anchor_live s e (hstays s e he) side
      · intro s e he
        exact hw.edge_properties s e (hstays s e he)
      · intro s
        rw [List.mem_filter, hw.mem_newest, Arena.get?_erase]
        by_cases heq : slot = s
        · simp [heq]
        · have hne : s ≠ slot := fun h => heq h.symm
          simp [heq, hne]
      · exact hw.newest_nodup.filter _

end Graph

end GraphGateway
