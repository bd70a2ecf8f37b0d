import GraphGateway.Proofs.Evaluation.Reachable
import GraphGateway.Proofs.Graph.IndexOrder

/-!
# Evaluation and the order of an index

Stores whose graphs differ in the order of their indexes alone cannot be told
apart: every traversal has the same outcome on both, at whatever position and
depth it looks elements up, and leaves stores that again differ in this order
alone.
-/

namespace GraphGateway

open Graph.Twins (Agree)

theorem Reading.of_twins {α : Type} {read : Graph → Except EvaluationError α} (h : Reading read)
    {g k : Graph} (hgk : g.Twins k) : read k = read g := by
  induction h with
  | selectVertices ids => exact congrFun hgk.selectVertices ids
  | selectEdges ids => exact congrFun hgk.selectEdges ids
  | hasLabel labels input => simp only [hgk.hasLabel]
  | has key p input => simp only [hgk.has]
  | hop direction labels v => simp only [hgk.hop]
  | incidentEdges side labels v => simp only [hgk.incidentEdges]
  | endpoint side v => simp only [hgk.endpoint]
  | valueMap tokens keys v => simp only [hgk.valueMap]
  | element step v => simp only [hgk.element]
  | map f _ ih => exact congrArg (Except.map f) ih

theorem Writing.agree {α : Type} {write : Graph → Except EvaluationError (α × Graph)}
    (h : Writing write) {g k : Graph} (hgk : g.Twins k) : Agree (write g) (write k) := by
  cases h with
  | setVertexProperty id key value => exact hgk.setVertexProperty id key value
  | setEdgeProperty id key value => exact hgk.setEdgeProperty id key value
  | renameVertex old new => exact hgk.renameVertex old new
  | removeVertex id => exact ⟨rfl, hgk.removeVertex id⟩
  | removeEdge id => exact ⟨rfl, hgk.removeEdge id⟩

namespace Store

/-- Two stores that differ at most in the order in which the indexes list the identifiers. -/
structure Shuffled (s t : Store) : Prop where
  graph : s.graph.Shuffled t.graph
  ids : t.ids = s.ids

/-- Two such stores whose indexes list no identifier twice. -/
structure Twins (s t : Store) : Prop where
  graph : s.graph.Twins t.graph
  ids : t.ids = s.ids

theorem Twins.shuffled {s t : Store} (h : s.Twins t) : s.Shuffled t :=
  ⟨h.graph.toShuffled, h.ids⟩

end Store

namespace Eval

variable {α β : Type}

/-- From twin stores the computation has one outcome, and twin stores are left. -/
def IgnoresOrder (e : Eval α) : Prop :=
  ∀ s t : Store, s.Twins t →
    (e.runOn t).1 = (e.runOn s).1 ∧ (e.runOn s).2.Twins (e.runOn t).2

namespace IgnoresOrder

theorem pure (a : α) : IgnoresOrder (pure a : Eval α) :=
  fun _ _ h => ⟨rfl, h⟩

theorem throw (err : EvaluationError) : IgnoresOrder (throw err : Eval α) :=
  fun _ _ h => ⟨rfl, h⟩

theorem bind {e : Eval α} {f : α → Eval β} (he : IgnoresOrder e) (hf : ∀ a, IgnoresOrder (f a)) :
    IgnoresOrder (e >>= f) := by
  intro s t h
  obtain ⟨hsame, hnext⟩ := he s t h
  rw [runOn_bind, runOn_bind]
  cases hs : runOn e s with
  | mk outcome next =>
      cases ht : runOn e t with
      | mk other following =>
          rw [hs, ht] at hsame hnext
          cases hsame
          cases outcome with
          | error err => exact ⟨rfl, hnext⟩
          | ok a => exact hf a next following hnext

theorem look {read : Graph → Except EvaluationError α} (hread : Reading read) :
    IgnoresOrder (look read) := by
  intro s t h
  rw [runOn_look, runOn_look]
  exact ⟨hread.of_twins h.graph, h⟩

theorem change (access : Access) {write : Graph → Except EvaluationError (α × Graph)}
    (hwrite : ∀ {g k : Graph}, g.Twins k → Agree (write g) (write k)) :
    IgnoresOrder (change access write) := by
  intro s t h
  cases access with
  | read => exact ⟨rfl, h⟩
  | write =>
      have hagree := hwrite h.graph
      rw [runOn_change_write, runOn_change_write]
      cases hs : write s.graph with
      | error err =>
          cases ht : write t.graph with
          | error other =>
              rw [hs, ht] at hagree
              cases hagree
              exact ⟨rfl, h⟩
          | ok found =>
              rw [hs, ht] at hagree
              exact hagree.elim
      | ok found =>
          cases ht : write t.graph with
          | error other =>
              rw [hs, ht] at hagree
              exact hagree.elim
          | ok other =>
              rw [hs, ht] at hagree
              exact ⟨congrArg Except.ok hagree.1, hagree.2, h.ids⟩

theorem fresh (access : Access) : IgnoresOrder (fresh access) := by
  intro s t h
  cases access with
  | read => exact ⟨rfl, h⟩
  | write =>
      rw [runOn_fresh_write, runOn_fresh_write, h.ids]
      exact ⟨rfl, h.graph, rfl⟩

theorem logic (access : Access) : Logic access True IgnoresOrder where
  pure := pure
  throw := fun _ _ => throw _
  bind := bind
  look := look
  change := fun _ _ _ hwrite => change access hwrite.agree
  addVertex := fun _ label =>
    bind (fresh access) fun id =>
      bind (change access fun h => h.insertVertex id label) fun _ => pure _
  drawEdge := fun _ label source target =>
    bind (fresh access) fun id =>
      bind (change access fun h => h.insertEdge id label source target) fun _ => pure _

end IgnoresOrder

end Eval

namespace Store

variable {s t : Store}

theorem Shuffled.twins (h : s.Shuffled t) (hs : s.Sound) : s.Twins t :=
  ⟨h.graph.twins hs.graph_wellFormed, h.ids⟩

/-- Whatever the order, a traversal has one outcome, and only the order is different afterwards. -/
theorem Shuffled.routine (h : s.Shuffled t) (hs : s.Sound) (access : Access) (traversal : Traversal)
    (start : Option (List Value)) :
    let run := (traversal.routine access start).runOn
    (run t).1 = (run s).1 ∧ (run s).2.Shuffled (run t).2 := by
  have hlogic := Eval.IgnoresOrder.logic access
  obtain ⟨hsame, hnext⟩ := hlogic.routine traversal (fun _ => trivial) start s t (h.twins hs)
  exact ⟨hsame, hnext.shuffled⟩

theorem Shuffled.submit (h : s.Shuffled t) (hs : s.Sound) (traversal : Traversal) :
    (t.submit traversal).1 = (s.submit traversal).1 ∧
      (s.submit traversal).2.Shuffled (t.submit traversal).2 := by
  unfold Store.submit
  split
  · exact ⟨rfl, h⟩
  · exact h.routine hs (accessFor traversal) traversal none

/-- However a store came about, an identifier value that no vertex has exactly is matched by one
vertex at most. In every order of the indexes a look-up therefore finds the exact match, without one
the only match, and else nothing; and every traversal has the same outcome, wherever in it elements
are looked up. The same holds of edges. -/
theorem Reachable.lookups_ignore_order (hs : s.Reachable) :
    s.graph.vertices.MatchesOnce VertexRecord.id ∧ s.graph.edges.MatchesOnce EdgeRecord.id ∧
      ∀ t, s.Shuffled t →
        (∀ v slot, Graph.findSlot? t.graph.vertexIndex v = some slot ↔
          ∃ r, s.graph.vertices.get? slot = some r ∧ s.graph.vertices.Names VertexRecord.id v r) ∧
        (∀ v slot, Graph.findSlot? t.graph.edgeIndex v = some slot ↔
          ∃ e, s.graph.edges.get? slot = some e ∧ s.graph.edges.Names EdgeRecord.id v e) ∧
        (∀ ids, t.graph.selectVertices ids = s.graph.selectVertices ids ∧
          t.graph.selectEdges ids = s.graph.selectEdges ids) ∧
        (∀ access traversal start,
          let run := (Traversal.routine access traversal start).runOn
          (run t).1 = (run s).1 ∧ (run s).2.Shuffled (run t).2) ∧
        ∀ traversal, (t.submit traversal).1 = (s.submit traversal).1 ∧
          (s.submit traversal).2.Shuffled (t.submit traversal).2 := by
  have hsound := hs.sound
  have hvertices := hsound.graph_wellFormed.vertices_indexed
  have hedges := hsound.graph_wellFormed.edges_indexed
  refine ⟨hvertices.matchesOnce, hedges.matchesOnce, fun t ht => ?_⟩
  have htwins := (ht.twins hsound).graph
  refine ⟨fun v slot => ?_, fun v slot => ?_, fun ids => ?_, ht.routine hsound, ht.submit hsound⟩
  · rw [htwins.findVertex]
    exact hvertices.findSlot?_names v slot
  · rw [htwins.findEdge]
    exact hedges.findSlot?_names v slot
  · rw [htwins.selectVertices, htwins.selectEdges]
    exact ⟨rfl, rfl⟩

/-- A store with a user whose identifier is a number, and one whose identifier is a text. -/
def mixed : Store :=
  (start unary).performAll
    [.addVertex (.int 7) "User" [], .addVertex (.text "u1") "User" [],
      .addEdge "FOLLOWS" (.int 7) (.text "u1")]

/-- The same store, with its vertices indexed the other way round. -/
def mixedReversed : Store :=
  { mixed with
    graph :=
      { mixed.graph with vertexIndex := ⟨[(.text "u1", 1), (.int 7, 0)]⟩ } }

theorem lookups_ignore_order_mixed :
    mixed.Reachable ∧ mixed.Shuffled mixedReversed ∧
      (mixedReversed.submit (.root [.vertices [.string "7"]])).1 =
        .ok [.vertex ⟨.int 7, "User"⟩] := by
  have hreachable : mixed.Reachable := ⟨unary, _, unary_injective, rfl⟩
  have hshuffled : mixed.Shuffled mixedReversed :=
    { graph :=
        { vertices := rfl
          edges := rfl
          newest := rfl
          vertexIndex := .swap _ _ _
          edgeIndex := .refl _ }
      ids := rfl }
  obtain ⟨-, -, horder⟩ := hreachable.lookups_ignore_order
  obtain ⟨-, -, -, -, hsubmit⟩ := horder mixedReversed hshuffled
  exact ⟨hreachable, hshuffled, (hsubmit _).1.trans rfl⟩

end Store

end GraphGateway
