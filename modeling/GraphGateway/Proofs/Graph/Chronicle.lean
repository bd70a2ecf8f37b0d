import GraphGateway.Proofs.Graph.WellFormed

/-!
# Chronicles of edges

How a graph came about, as far as its edges go: which edges were ever added to
it, oldest first, and whether one of them took a slot that an earlier edge had
left. An edge stays in its slot as long as it exists, and a slot that was never
used lies behind all others. So it is the reuse of slots alone that can bring
the order of slots and the order of additions apart.
-/

namespace GraphGateway

namespace Graph

/-- One change of a graph that adds no edge. -/
inductive Change : Graph → Graph → Prop where
  | insertVertex {g next : Graph} {id : ElementId} {label : String} {v : Vertex}
      (h : g.insertVertex id label = .ok (v, next)) : Change g next
  | setVertexProperty {g next : Graph} {id : ElementId} {key : String} {value : Value}
      (h : g.setVertexProperty id key value = .ok next) : Change g next
  | setEdgeProperty {g next : Graph} {id : ElementId} {key : String} {value : Value}
      (h : g.setEdgeProperty id key value = .ok next) : Change g next
  | renameVertex {g next : Graph} {old new : ElementId} {v : Vertex}
      (h : g.renameVertex old new = .ok (v, next)) : Change g next
  | removeVertex (g : Graph) (id : ElementId) : Change g (g.removeVertex id)
  | removeEdge (g : Graph) (id : ElementId) : Change g (g.removeEdge id)

/-- A graph, the edges ever added to it, oldest first, and whether one of them took a vacated
slot. -/
inductive Chronicle : Graph → List ElementId → Bool → Prop where
  | empty : Chronicle .empty [] false
  | addEdge {g next : Graph} {added : List ElementId} {reused : Bool}
      {id source target : ElementId} {label : String} {e : Edge} (h : Chronicle g added reused)
      (hnew : id ∉ added) (hadd : g.insertEdge id label source target = .ok (e, next)) :
      Chronicle next (added ++ [id]) (reused || !g.edges.free.isEmpty)
  | change {g next : Graph} {added : List ElementId} {reused : Bool} (h : Chronicle g added reused)
      (hchange : Change g next) : Chronicle next added reused

variable {g next : Graph} {added : List ElementId} {reused : Bool}

/-! ## Single changes -/

theorem Change.wellFormed (h : Change g next) (hw : g.WellFormed) : next.WellFormed := by
  cases h with
  | insertVertex h => exact hw.insertVertex h
  | setVertexProperty h => exact hw.setVertexProperty h
  | setEdgeProperty h => exact hw.setEdgeProperty h
  | renameVertex h => exact hw.renameVertex h
  | removeVertex id => exact hw.removeVertex id
  | removeEdge id => exact hw.removeEdge id

/-- An edge that is there afterwards was there before, in the same slot. -/
theorem Change.edge_stays (h : Change g next) (hw : g.WellFormed) {id : ElementId} {slot : Nat}
    (hslot : next.edgeIndex.get? id = some slot) : g.edgeIndex.get? id = some slot := by
  have hdistinct := hw.edges_indexed.index_distinct
  cases h with
  | insertVertex h =>
      obtain ⟨-, -, rfl⟩ := insertVertex_eq_ok h
      exact hslot
  | setVertexProperty h =>
      obtain ⟨_, -, rfl⟩ := setVertexProperty_eq_ok h
      exact hslot
  | setEdgeProperty h =>
      obtain ⟨_, -, rfl⟩ := setEdgeProperty_eq_ok h
      exact hslot
  | renameVertex h =>
      obtain ⟨_, -, -, ⟨-, rfl⟩ | ⟨-, -, rfl⟩⟩ := renameVertex_eq_ok h
      · exact hslot
      · exact hslot
  | removeVertex vertex =>
      unfold Graph.removeVertex at hslot
      split at hslot
      · exact hslot
      · rw [Indexed.get?_unindex _ hdistinct] at hslot
        split at hslot
        · cases hslot
        · exact hslot
  | removeEdge edge =>
      unfold Graph.removeEdge at hslot
      split at hslot
      · exact hslot
      · rw [hdistinct.get?_erase] at hslot
        split at hslot
        · cases hslot
        · exact hslot

/-- Adding an edge puts it into a slot and leaves all others in theirs. -/
theorem get?_insertEdge {id source target : ElementId} {label : String} {e : Edge}
    (h : g.insertEdge id label source target = .ok (e, next)) :
    ∃ r : EdgeRecord, ∀ other, next.edgeIndex.get? other =
      if id = other then some (g.edges.insert r).2 else g.edgeIndex.get? other := by
  obtain ⟨s, t, -, -, -, rfl⟩ := insertEdge_eq_ok h
  exact ⟨⟨id, label, .empty, s, t⟩, fun other => OrderedMap.get?_insert _ _ _ _⟩

namespace Chronicle

/-! ## Whole chronicles -/

/-- The graph is well-formed, and every edge in it was added. -/
theorem recorded (h : Chronicle g added reused) :
    g.WellFormed ∧ ∀ id slot, g.edgeIndex.get? id = some slot → id ∈ added := by
  induction h with
  | empty => exact ⟨.empty, by simp [Graph.empty]⟩
  | @addEdge g next added reused id source target label e h hnew hadd ih =>
      obtain ⟨hw, hindexed⟩ := ih
      have hfresh : g.edgeIndex.contains id = false := by
        cases hslot : g.edgeIndex.get? id with
        | none => simp [OrderedMap.contains, hslot]
        | some slot => exact absurd (hindexed id slot hslot) hnew
      refine ⟨hw.insertEdge hfresh hadd, fun other slot hslot => ?_⟩
      obtain ⟨r, hget⟩ := get?_insertEdge hadd
      rw [hget] at hslot
      rw [List.mem_append, List.mem_singleton]
      by_cases hid : id = other
      · exact .inr hid.symm
      · rw [if_neg hid] at hslot
        exact .inl (hindexed other slot hslot)
  | change h hchange ih =>
      obtain ⟨hw, hindexed⟩ := ih
      exact ⟨hchange.wellFormed hw, fun id slot hslot =>
        hindexed id slot (hchange.edge_stays hw hslot)⟩

theorem wellFormed (h : Chronicle g added reused) : g.WellFormed :=
  h.recorded.1

theorem mem_added (h : Chronicle g added reused) {id : ElementId} {slot : Nat}
    (hslot : g.edgeIndex.get? id = some slot) : id ∈ added :=
  h.recorded.2 id slot hslot

theorem added_nodup (h : Chronicle g added reused) : added.Nodup := by
  induction h with
  | empty => exact List.nodup_nil
  | addEdge h hnew hadd ih =>
      refine List.nodup_append.mpr ⟨ih, List.nodup_singleton _, ?_⟩
      intro a ha b hb heq
      rw [List.mem_singleton.mp hb] at heq
      exact hnew (heq ▸ ha)
  | change h hchange ih => exact ih

/-- Writing properties and adding a vertex with some are several changes that add no edge. -/
theorem setVertexProperties (properties : List (String × Value)) {g : Graph}
    (h : Chronicle g added reused) {id : ElementId}
    (hset : g.setVertexProperties id properties = .ok next) : Chronicle next added reused := by
  induction properties generalizing g with
  | nil => cases hset; exact h
  | cons head rest ih =>
      obtain ⟨key, value⟩ := head
      unfold Graph.setVertexProperties at hset
      cases hp : g.setVertexProperty id key value with
      | error err => rw [hp] at hset; cases hset
      | ok middle =>
          rw [hp] at hset
          exact ih (h.change (.setVertexProperty hp)) hset

theorem addVertex (h : Chronicle g added reused) {id : ElementId} {label : String}
    {properties : List (String × Value)} {v : Vertex}
    (hadd : g.addVertex id label properties = .ok (v, next)) : Chronicle next added reused := by
  obtain ⟨middle, hi, hp⟩ := addVertex_eq_ok hadd
  exact (h.change (.insertVertex hi)).setVertexProperties properties hp

/-- Where no slot was used twice, younger edges lie behind older ones. -/
theorem slots_ascend (h : Chronicle g added reused) (hreused : reused = false) :
    added.Pairwise fun a b => ∀ i j, g.edgeIndex.get? a = some i → g.edgeIndex.get? b = some j →
      i < j := by
  induction h with
  | empty => exact .nil
  | @addEdge g next added reused id source target label e h hnew hadd ih =>
      obtain ⟨hbefore, hfree⟩ := (Bool.or_eq_false_iff).mp hreused
      have hunused : g.edges.free = [] := by simpa using hfree
      obtain ⟨r, hget⟩ := get?_insertEdge hadd
      have hlast : (g.edges.insert r).2 = g.edges.slots.length := by
        simp [Arena.insert, hunused]
      have hold : ∀ a ∈ added, next.edgeIndex.get? a = g.edgeIndex.get? a := by
        intro a ha
        have hne : ¬ id = a := fun heq => hnew (heq ▸ ha)
        rw [hget, if_neg hne]
      refine List.pairwise_append.mpr ⟨?_, List.pairwise_singleton _ _, ?_⟩
      · refine (ih hbefore).imp_of_mem fun ha hb hlt => ?_
        rw [hold _ ha, hold _ hb]
        exact hlt
      · intro a ha b hb i j hi hj
        rw [hold a ha] at hi
        rw [List.mem_singleton.mp hb, hget, if_pos rfl, hlast] at hj
        cases hj
        obtain ⟨q, hq, -⟩ := h.wellFormed.edges_indexed.live_of_get? hi
        exact Arena.lt_of_get? hq
  | change h hchange ih =>
      refine (ih hreused).imp fun hlt i j hi hj => ?_
      exact hlt i j (hchange.edge_stays h.wellFormed hi) (hchange.edge_stays h.wellFormed hj)

end Chronicle

end Graph

end GraphGateway
