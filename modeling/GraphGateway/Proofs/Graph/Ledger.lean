import GraphGateway.Proofs.Graph.WellFormed

/-!
# Ledgers of properties

How a graph came about, as far as the properties of its vertices go: what was
written to the vertex in each slot, oldest first, since it was added. Everything
else that can happen to a graph leaves properties alone, also giving a vertex
another identifier. A vertex therefore holds what its part of the ledger leaves.
-/

namespace GraphGateway

namespace Graph

/-- A graph, and what was written to the vertex in each slot since that vertex was added. -/
inductive Ledger : Graph → (Nat → List (String × Value)) → Prop where
  | empty : Ledger .empty fun _ => []
  | insertVertex {g next : Graph} {written : Nat → List (String × Value)} {id : ElementId}
      {label : String} {v : Vertex} (h : Ledger g written) (hw : g.WellFormed)
      (hadd : g.insertVertex id label = .ok (v, next)) :
      Ledger next (Function.update written (g.vertices.insert ⟨id, label, .empty⟩).2 [])
  | setVertexProperty {g next : Graph} {written : Nat → List (String × Value)} {id : ElementId}
      {key : String} {value : Value} {slot : Nat} (h : Ledger g written)
      (hslot : g.vertexIndex.get? id = some slot)
      (hset : g.setVertexProperty id key value = .ok next) :
      Ledger next (Function.update written slot (written slot ++ [(key, value)]))
  | insertEdge {g next : Graph} {written : Nat → List (String × Value)}
      {id source target : ElementId} {label : String} {e : Edge} (h : Ledger g written)
      (hadd : g.insertEdge id label source target = .ok (e, next)) : Ledger next written
  | setEdgeProperty {g next : Graph} {written : Nat → List (String × Value)} {id : ElementId}
      {key : String} {value : Value} (h : Ledger g written)
      (hset : g.setEdgeProperty id key value = .ok next) : Ledger next written
  | renameVertex {g next : Graph} {written : Nat → List (String × Value)} {old new : ElementId}
      {v : Vertex} (h : Ledger g written) (hrename : g.renameVertex old new = .ok (v, next)) :
      Ledger next written
  | removeVertex {g : Graph} {written : Nat → List (String × Value)} (h : Ledger g written)
      (id : ElementId) : Ledger (g.removeVertex id) written
  | removeEdge {g : Graph} {written : Nat → List (String × Value)} (h : Ledger g written)
      (id : ElementId) : Ledger (g.removeEdge id) written

/-- Every vertex holds what was written to it. -/
theorem Ledger.holds {g : Graph} {written : Nat → List (String × Value)} (h : g.Ledger written)
    {slot : Nat} {r : VertexRecord} (hr : g.vertices.get? slot = some r) :
    r.properties.HoldsWrites (written slot) := by
  induction h generalizing slot r with
  | empty => simp [Graph.empty] at hr
  | insertVertex h hw hadd ih =>
      obtain ⟨-, -, rfl⟩ := insertVertex_eq_ok hadd
      rw [hw.vertices_indexed.arena_wellFormed.get?_insert] at hr
      split at hr
      · next hnew =>
          cases hr
          rw [← hnew, Function.update_self]
          exact .empty
      · next hold =>
          rw [Function.update_of_ne fun heq => hold heq.symm]
          exact ih hr
  | @setVertexProperty g next written id key value changed h hslot hset ih =>
      obtain ⟨found, hfound, rfl⟩ := setVertexProperty_eq_ok hset
      rw [hslot] at hfound
      cases hfound
      rw [Arena.get?_modify] at hr
      split at hr
      · next heq =>
          subst heq
          obtain ⟨q, hq, rfl⟩ := Option.map_eq_some_iff.mp hr
          rw [Function.update_self]
          exact (ih hq).insert key value
      · next hne =>
          rw [Function.update_of_ne fun heq => hne heq.symm]
          exact ih hr
  | insertEdge h hadd ih =>
      obtain ⟨_, _, -, -, -, rfl⟩ := insertEdge_eq_ok hadd
      exact ih hr
  | setEdgeProperty h hset ih =>
      obtain ⟨_, -, rfl⟩ := setEdgeProperty_eq_ok hset
      exact ih hr
  | renameVertex h hrename ih =>
      obtain ⟨_, -, -, ⟨-, rfl⟩ | ⟨-, -, rfl⟩⟩ := renameVertex_eq_ok hrename
      · exact ih hr
      · rw [Arena.get?_modify] at hr
        split at hr
        · obtain ⟨q, hq, rfl⟩ := Option.map_eq_some_iff.mp hr
          exact ih (r := q) hq
        · exact ih hr
  | removeVertex h id ih =>
      unfold Graph.removeVertex at hr
      split at hr
      · exact ih hr
      · exact ih (Arena.get?_of_erase hr)
  | removeEdge h id ih =>
      unfold Graph.removeEdge at hr
      split at hr <;> exact ih hr

end Graph

end GraphGateway
