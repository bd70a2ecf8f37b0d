import GraphGateway.Proofs.Except
import GraphGateway.Proofs.Graph.Walk
import GraphGateway.Proofs.Value.Identifiers

/-!
# The order of an index

A look-up by identifier falls back on the first identifier with the same text,
so that it could depend on the order in which an index lists its entries. It does
not: where no identifier is exactly the one asked for, at most one reads alike.
Graphs that differ in the order of their indexes alone therefore read the same,
and writing to both leaves them so.
-/

namespace GraphGateway

namespace Arena

variable {α : Type}

/-- No record carries exactly the identifier that a value is. -/
def Lacks (arena : Arena α) (idOf : α → ElementId) (v : Value) : Prop :=
  ∀ slot r, arena.get? slot = some r → v.asId? ≠ some (idOf r)

/-- The record that an identifier value is meant to find: it carries exactly this identifier, or
no record does and its own has the same text. -/
def Names (arena : Arena α) (idOf : α → ElementId) (v : Value) (r : α) : Prop :=
  v.asId? = some (idOf r) ∨ arena.Lacks idOf v ∧ (idOf r).matchesValue v = true

/-- A value that is not exactly the identifier of a record is matched by one record at most. -/
def MatchesOnce (arena : Arena α) (idOf : α → ElementId) : Prop :=
  ∀ v, arena.Lacks idOf v → ∀ slot other r q, arena.get? slot = some r → arena.get? other = some q →
    (idOf r).matchesValue v = true → (idOf q).matchesValue v = true → slot = other

end Arena

namespace Graph

/-! ## Finding elements -/

section Entries

variable {index : OrderedMap ElementId Nat} {v : Value}

/-- Where no identifier is exactly the one asked for, the first matching entry is the only one. -/
theorem find?_matching (hd : index.Distinct) (hnone : ∀ id ∈ index.keys, v.asId? ≠ some id)
    (entry : ElementId × Nat) :
    (index.entries.find? fun e => e.1.matchesValue v) = some entry ↔
      entry ∈ index.entries ∧ entry.1.matchesValue v = true := by
  have hunmatched : ∀ {e}, e ∈ index.entries → v.asId? ≠ some e.1 :=
    fun hm => hnone _ (List.mem_map_of_mem hm)
  constructor
  · intro h
    have hmatches := List.find?_some h
    exact ⟨List.mem_of_find?_eq_some h, hmatches⟩
  · intro h
    obtain ⟨hm, hmatches⟩ := h
    have hsome : (index.entries.find? fun e => e.1.matchesValue v).isSome = true :=
      List.find?_isSome.mpr ⟨entry, hm, hmatches⟩
    obtain ⟨first, hfirst⟩ := Option.isSome_iff_exists.mp hsome
    have hfm := List.mem_of_find?_eq_some hfirst
    have hfmatches := List.find?_some hfirst
    have hid : first.1 = entry.1 :=
      ElementId.eq_of_matchesValue hfmatches hmatches (hunmatched hfm) (hunmatched hm)
    have hslot : some first.2 = some entry.2 := by
      rw [← (hd.get?_eq_some_iff _ _).mpr hfm, ← (hd.get?_eq_some_iff _ _).mpr hm, hid]
    rw [hfirst, Prod.ext hid (Option.some.inj hslot)]

/-- What an identifier value leads to in an index: the slot of exactly this identifier, and without
one a slot whose identifier has the same text. -/
theorem findSlot?_eq_some_iff (hd : index.Distinct) (v : Value) (slot : Nat) :
    findSlot? index v = some slot ↔
      ∃ id, (id, slot) ∈ index.entries ∧
        (v.asId? = some id ∨
          (∀ other ∈ index.keys, v.asId? ≠ some other) ∧ id.matchesValue v = true) := by
  have hentry : ∀ id slot, index.get? id = some slot ↔ (id, slot) ∈ index.entries :=
    fun id slot => hd.get?_eq_some_iff id slot
  cases hexact : v.asId?.bind index.get? with
  | some found =>
      obtain ⟨asked, hasked, hfound⟩ := Option.bind_eq_some_iff.mp hexact
      have hstored : asked ∈ index.keys := List.mem_map_of_mem ((hentry _ _).mp hfound)
      have hslot : findSlot? index v = index.get? asked := by simp [findSlot?, hasked, hfound]
      rw [hslot, hentry]
      constructor
      · intro h
        exact ⟨asked, h, .inl hasked⟩
      · intro h
        obtain ⟨id, hid, hnamed | ⟨hnone, -⟩⟩ := h
        · rw [hasked] at hnamed
          cases hnamed
          exact hid
        · exact (hnone asked hstored hasked).elim
  | none =>
      have hnone : ∀ other ∈ index.keys, v.asId? ≠ some other := by
        intro other hother hasked
        rw [hasked, Option.bind_some] at hexact
        exact (OrderedMap.lookup_eq_none_iff other index.entries).mp hexact hother
      simp only [findSlot?, hexact, Option.map_eq_some_iff, find?_matching hd hnone]
      constructor
      · intro h
        obtain ⟨⟨id, found⟩, ⟨hid, hmatches⟩, rfl⟩ := h
        exact ⟨id, hid, .inr ⟨hnone, hmatches⟩⟩
      · intro h
        obtain ⟨id, hid, hnamed | ⟨-, hmatches⟩⟩ := h
        · exact (hnone id (List.mem_map_of_mem hid) hnamed).elim
        · exact ⟨(id, slot), ⟨hid, hmatches⟩, rfl⟩

end Entries

end Graph

namespace Indexed

variable {α : Type} {idOf : α → ElementId} {arena : Arena α} {index : OrderedMap ElementId Nat}

theorem matchesOnce (h : Indexed idOf arena index) : arena.MatchesOnce idOf := by
  intro v hlacks slot other r q hr hq hmatch hmatch'
  have hid := ElementId.eq_of_matchesValue hmatch hmatch' (hlacks slot r hr) (hlacks other q hq)
  exact h.slot_unique hr hq hid

/-- A look-up finds the record that a value is meant to find, and nothing when there is none. -/
theorem findSlot?_names (h : Indexed idOf arena index) (v : Value) (slot : Nat) :
    Graph.findSlot? index v = some slot ↔ ∃ r, arena.get? slot = some r ∧ arena.Names idOf v r := by
  have hd := h.index_distinct
  have hentry : ∀ id slot,
      (id, slot) ∈ index.entries ↔ ∃ r, arena.get? slot = some r ∧ idOf r = id :=
    fun id slot => (hd.get?_eq_some_iff id slot).symm.trans (h.get?_iff id slot)
  have hlacks : (∀ id ∈ index.keys, v.asId? ≠ some id) ↔ arena.Lacks idOf v := by
    constructor
    · intro hnone slot r hr
      exact hnone _ (List.mem_map_of_mem ((hentry _ _).mpr ⟨r, hr, rfl⟩))
    · intro hnone id hid
      obtain ⟨⟨key, found⟩, hm, rfl⟩ := List.mem_map.mp hid
      obtain ⟨r, hr, rfl⟩ := (hentry key found).mp hm
      exact hnone found r hr
  rw [Graph.findSlot?_eq_some_iff hd]
  constructor
  · intro hfound
    obtain ⟨id, hm, hnamed⟩ := hfound
    obtain ⟨r, hr, rfl⟩ := (hentry id slot).mp hm
    exact ⟨r, hr, hnamed.imp_right fun hmatch => ⟨hlacks.mp hmatch.1, hmatch.2⟩⟩
  · intro hfound
    obtain ⟨r, hr, hnamed⟩ := hfound
    refine ⟨idOf r, (hentry _ slot).mpr ⟨r, hr, rfl⟩, ?_⟩
    exact hnamed.imp_right fun hmatch => ⟨hlacks.mpr hmatch.1, hmatch.2⟩

end Indexed

namespace Graph

/-- The order of an index does not matter to a look-up. -/
theorem findSlot?_perm {index other : OrderedMap ElementId Nat} (hd : index.Distinct)
    (h : index.entries.Perm other.entries) : findSlot? other = findSlot? index := by
  have hkeys : ∀ id, id ∈ other.keys ↔ id ∈ index.keys := fun id => (h.map Prod.fst).mem_iff.symm
  funext v
  refine Option.ext fun slot => ?_
  rw [findSlot?_eq_some_iff (hd.perm h), findSlot?_eq_some_iff hd]
  simp only [hkeys, h.mem_iff]

/-- Two graphs that differ at most in the order in which their indexes list the identifiers. -/
structure Shuffled (g k : Graph) : Prop where
  vertices : k.vertices = g.vertices
  edges : k.edges = g.edges
  newest : k.newest = g.newest
  vertexIndex : g.vertexIndex.entries.Perm k.vertexIndex.entries
  edgeIndex : g.edgeIndex.entries.Perm k.edgeIndex.entries

/-- Two such graphs whose indexes list no identifier twice. -/
structure Twins (g k : Graph) : Prop extends Shuffled g k where
  vertices_once : g.vertexIndex.Distinct
  edges_once : g.edgeIndex.Distinct

theorem Shuffled.twins {g k : Graph} (h : g.Shuffled k) (hw : g.WellFormed) : g.Twins k where
  toShuffled := h
  vertices_once := hw.vertices_indexed.index_distinct
  edges_once := hw.edges_indexed.index_distinct

namespace Twins

variable {g k : Graph}

/-! ## Reading -/

theorem get?_vertexIndex (h : g.Twins k) : k.vertexIndex.get? = g.vertexIndex.get? :=
  h.vertices_once.get?_perm h.vertexIndex

theorem get?_edgeIndex (h : g.Twins k) : k.edgeIndex.get? = g.edgeIndex.get? :=
  h.edges_once.get?_perm h.edgeIndex

theorem vertexSlot (h : g.Twins k) : k.vertexSlot = g.vertexSlot := by
  funext id
  simp only [Graph.vertexSlot, h.get?_vertexIndex]

theorem edgeSlot (h : g.Twins k) : k.edgeSlot = g.edgeSlot := by
  funext id
  simp only [Graph.edgeSlot, h.get?_edgeIndex]

theorem vertexAt (h : g.Twins k) : k.vertexAt = g.vertexAt := by
  funext slot
  simp only [Graph.vertexAt, h.vertices]

theorem edgeAt (h : g.Twins k) : k.edgeAt = g.edgeAt := by
  funext slot
  simp only [Graph.edgeAt, h.edges, h.vertexAt]

theorem findVertex (h : g.Twins k) : findSlot? k.vertexIndex = findSlot? g.vertexIndex :=
  findSlot?_perm h.vertices_once h.vertexIndex

theorem findEdge (h : g.Twins k) : findSlot? k.edgeIndex = findSlot? g.edgeIndex :=
  findSlot?_perm h.edges_once h.edgeIndex

theorem selectVertices (h : g.Twins k) : k.selectVertices = g.selectVertices := by
  funext ids
  simp only [Graph.selectVertices, h.vertices, h.vertexAt, h.findVertex]

theorem selectEdges (h : g.Twins k) : k.selectEdges = g.selectEdges := by
  funext ids
  simp only [Graph.selectEdges, h.edges, h.edgeAt, h.findEdge]

theorem element? (h : g.Twins k) : k.element? = g.element? := by
  funext v
  cases v <;>
    simp only [Graph.element?, liveVertex?, liveEdge?, h.get?_vertexIndex, h.get?_edgeIndex,
      h.vertices, h.edges]

theorem element (h : g.Twins k) : k.element = g.element := by
  funext step v
  simp only [Graph.element, h.element?]

theorem hasLabel (h : g.Twins k) : k.hasLabel = g.hasLabel := by
  funext labels v
  simp only [Graph.hasLabel, h.element?]

theorem has (h : g.Twins k) : k.has = g.has := by
  funext key p v
  simp only [Graph.has, h.element?]

theorem valueMap (h : g.Twins k) : k.valueMap = g.valueMap := by
  funext tokens keys v
  simp only [Graph.valueMap, h.element]

theorem walkStart (h : g.Twins k) : k.walkStart = g.walkStart := by
  funext v
  cases v <;> simp only [Graph.walkStart, h.get?_vertexIndex]

theorem edgesAt (h : g.Twins k) : k.edgesAt = g.edgesAt := by
  funext side labels vertex
  simp only [Graph.edgesAt, h.edges]

theorem incidentEdges (h : g.Twins k) : k.incidentEdges = g.incidentEdges := by
  funext side labels v
  simp only [Graph.incidentEdges, h.walkStart, h.edgesAt, h.edgeAt]

theorem neighbours (h : g.Twins k) : k.neighbours = g.neighbours := by
  funext side labels v
  simp only [Graph.neighbours, h.walkStart, h.edgesAt, h.vertexAt]

theorem hop (h : g.Twins k) : k.hop = g.hop := by
  funext direction labels v
  cases direction <;> simp only [Graph.hop, h.neighbours]

theorem endpoint (h : g.Twins k) : k.endpoint = g.endpoint := by
  funext side v
  cases v <;> simp only [Graph.endpoint, h.get?_edgeIndex, h.edges, h.vertexAt]

theorem isAnchored (h : g.Twins k) : k.isAnchored = g.isAnchored := by
  funext side vertex edge
  simp only [Graph.isAnchored, h.edges]

theorem incidentSlots (h : g.Twins k) : k.incidentSlots = g.incidentSlots := by
  funext vertex
  simp only [Graph.incidentSlots, h.newest, h.isAnchored]

/-! ## Writing -/

/-- Outcomes of one change to twins: the same error, or the same result and twins again. -/
def Agree {α : Type} :
    Except EvaluationError (α × Graph) → Except EvaluationError (α × Graph) → Prop
  | .ok (a, g), .ok (b, k) => b = a ∧ g.Twins k
  | .error e, .error f => f = e
  | _, _ => False

theorem contains_vertexIndex (h : g.Twins k) (id : ElementId) :
    k.vertexIndex.contains id = g.vertexIndex.contains id := by
  simp only [OrderedMap.contains, h.get?_vertexIndex]

theorem insertVertex (h : g.Twins k) (id : ElementId) (label : String) :
    Agree (g.insertVertex id label) (k.insertVertex id label) := by
  unfold Graph.insertVertex
  rw [h.contains_vertexIndex, h.vertices]
  split
  · rfl
  · exact ⟨rfl, { h with
      vertices := rfl
      vertexIndex := h.vertices_once.insert_perm h.vertexIndex _ _
      vertices_once := h.vertices_once.insert _ _ }⟩

theorem insertEdge (h : g.Twins k) (id : ElementId) (label : String) (source target : ElementId) :
    Agree (g.insertEdge id label source target) (k.insertEdge id label source target) := by
  unfold Graph.insertEdge
  rw [h.vertexSlot, h.edges, h.newest]
  cases g.vertexSlot source with
  | error err => rfl
  | ok near =>
      cases g.vertexSlot target with
      | error err => rfl
      | ok far =>
          exact ⟨rfl, { h with
            edges := rfl
            newest := rfl
            edgeIndex := h.edges_once.insert_perm h.edgeIndex _ _
            edges_once := h.edges_once.insert _ _ }⟩

theorem setVertexProperty (h : g.Twins k) (id : ElementId) (key : String) (value : Value) :
    Agree ((g.setVertexProperty id key value).map ((), ·))
      ((k.setVertexProperty id key value).map ((), ·)) := by
  unfold Graph.setVertexProperty
  rw [h.vertexSlot, h.vertices]
  cases g.vertexSlot id with
  | error err => rfl
  | ok slot => exact ⟨rfl, { h with vertices := rfl }⟩

theorem setEdgeProperty (h : g.Twins k) (id : ElementId) (key : String) (value : Value) :
    Agree ((g.setEdgeProperty id key value).map ((), ·))
      ((k.setEdgeProperty id key value).map ((), ·)) := by
  unfold Graph.setEdgeProperty
  rw [h.edgeSlot, h.edges]
  cases g.edgeSlot id with
  | error err => rfl
  | ok slot => exact ⟨rfl, { h with edges := rfl }⟩

theorem renameVertex (h : g.Twins k) (old new : ElementId) :
    Agree (g.renameVertex old new) (k.renameVertex old new) := by
  unfold Graph.renameVertex
  rw [h.vertexSlot, h.vertexAt, h.contains_vertexIndex, h.vertices]
  cases g.vertexSlot old with
  | error err => rfl
  | ok slot =>
      simp only [Except.ok_bind]
      split
      · cases g.vertexAt slot with
        | error err => rfl
        | ok v => exact ⟨rfl, h⟩
      · split
        · rfl
        · have hrenamed : Twins
              { g with
                vertices := g.vertices.modify slot fun r => { r with id := new }
                vertexIndex := (g.vertexIndex.erase old).insert new slot }
              { k with
                vertices := g.vertices.modify slot fun r => { r with id := new }
                vertexIndex := (k.vertexIndex.erase old).insert new slot } :=
            { h with
              vertices := rfl
              vertexIndex := (h.vertices_once.erase old).insert_perm
                (h.vertices_once.erase_perm h.vertexIndex old) _ _
              vertices_once := (h.vertices_once.erase old).insert _ _ }
          rw [hrenamed.vertexAt]
          cases Graph.vertexAt _ slot with
          | error err => rfl
          | ok v => exact ⟨rfl, hrenamed⟩

theorem unindex_perm {index other : OrderedMap ElementId Nat} (ids : List ElementId)
    (hd : index.Distinct) (h : index.entries.Perm other.entries) :
    (unindex index ids).entries.Perm (unindex other ids).entries := by
  induction ids generalizing index other with
  | nil => exact h
  | cons id rest ih => exact ih (hd.erase id) (hd.erase_perm h id)

theorem removeVertex (h : g.Twins k) (id : ElementId) :
    (g.removeVertex id).Twins (k.removeVertex id) := by
  unfold Graph.removeVertex
  rw [h.get?_vertexIndex]
  cases g.vertexIndex.get? id with
  | none => exact h
  | some slot =>
      simp only [h.incidentSlots, h.vertices, h.edges, h.newest]
      exact
        { vertices := rfl
          edges := rfl
          newest := rfl
          vertexIndex := h.vertices_once.erase_perm h.vertexIndex id
          edgeIndex := unindex_perm _ h.edges_once h.edgeIndex
          vertices_once := h.vertices_once.erase id
          edges_once := Indexed.distinct_unindex _ h.edges_once }

theorem removeEdge (h : g.Twins k) (id : ElementId) :
    (g.removeEdge id).Twins (k.removeEdge id) := by
  unfold Graph.removeEdge
  rw [h.get?_edgeIndex]
  cases g.edgeIndex.get? id with
  | none => exact h
  | some slot =>
      simp only [h.edges, h.newest]
      exact { h with
        edges := rfl
        newest := rfl
        edgeIndex := h.edges_once.erase_perm h.edgeIndex id
        edges_once := h.edges_once.erase id }

end Twins
end Graph
end GraphGateway
