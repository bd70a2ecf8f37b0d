import GraphGateway.Proofs.Evaluation.Hops
import GraphGateway.Proofs.Graph.Removal

/-!
# Removing elements

What a step that removes elements does to a store: exactly the elements that it
was given go, and the edges of the vertices among them. Everything else is listed
as before, in the same order and with the same properties.
-/

namespace GraphGateway

namespace Step

/-- The step lets nothing out and removes one thing after another. -/
theorem drop_leads (input : List Value) (s : Store) :
    (onValues .write [.drop] input).Leads s []
      { s with graph := input.foldl Graph.removed s.graph } := by
  have hone : ∀ (x : Value) (s : Store), (Stage.dropElement .write x).Leads s []
      { s with graph := s.graph.removed x } := by
    intro x s
    cases x
    case vertex v =>
      exact (Eval.Leads.change (fun g => .ok ((), g.removeVertex v.id)) rfl).map fun _ => []
    case edge e =>
      exact (Eval.Leads.change (fun g => .ok ((), g.removeEdge e.id)) rfl).map fun _ => []
    all_goals exact (Eval.Yields.pure []).leads
  rw [onValues_singleton rfl]
  show (Eval.collect (Stage.dropElement .write) input).Leads s [] _
  induction input generalizing s with
  | nil => exact (Eval.Yields.pure []).leads
  | cons x rest ih => exact (hone x s).bind ((ih { s with graph := s.graph.removed x }).map _)

end Step

namespace Store

variable {s next : Store}

/-- A listing lost some of its items and no others. Those that are left come in the order they were
in and are what they were, and the graph counts fewer by as many as were lost. -/
def Loses {α : Type} (s next : Store) (listing : Traversal) (wrap : α → Value) (count : Graph → Nat)
    (lost : α → Bool) : Prop :=
  ∃ items : List α, items.Nodup ∧
    s.submit listing = (.ok (items.map wrap), s) ∧
    next.submit listing = (.ok ((items.filter fun a => !lost a).map wrap), next) ∧
    count next.graph + (items.filter lost).length = count s.graph ∧
    ∀ a ∈ items, lost a = false → ∃ found,
      s.graph.element? (wrap a) = some found ∧ next.graph.element? (wrap a) = some found

theorem loses_vertices (hw : s.graph.WellFormed) {input : List Value} {graph : Graph}
    (h : s.graph.Without input graph) :
    s.Loses { s with graph } (.root [.vertices []]) .vertex Graph.vertexCount
      (Vertex.goesWith input) := by
  obtain ⟨hlength, hnodup, hmem⟩ := hw.allVertices_listed
  obtain ⟨hleft, -, -⟩ := h.wellFormed.allVertices_listed
  refine ⟨s.graph.allVertices, hnodup, submit_vertices hw, ?_, ?_, fun v hv hstays => ?_⟩
  · rw [← h.allVertices]
    exact submit_vertices (s := { s with graph }) h.wellFormed
  · rw [h.allVertices] at hleft
    rw [← hlength, ← hleft, Nat.add_comm]
    exact (List.length_eq_length_filter_add _).symm
  · obtain ⟨slot, hslot⟩ := (hmem v).mp hv
    have hin : graph.vertexIn? slot = some v := by
      rw [h.vertexIn?, hslot]
      exact Option.filter_some_pos (congrArg Bool.not hstays)
    obtain ⟨r, hr, rfl⟩ := Option.map_eq_some_iff.mp hin
    have hafter : graph.recordOf? r.reference.id = some r := h.wellFormed.recordOf?_of_live hr
    have hbefore : s.graph.recordOf? r.reference.id = some r :=
      hw.recordOf?_of_live (h.vertices slot r hr)
    refine ⟨⟨r.id, r.label, r.properties⟩, ?_, ?_⟩
    · rw [Graph.element?_vertex, hbefore, Option.map_some]
    · rw [Graph.element?_vertex, hafter, Option.map_some]

theorem loses_edges (hw : s.graph.WellFormed) {input : List Value} {graph : Graph}
    (h : s.graph.Without input graph) :
    s.Loses { s with graph } (.root [.edges []]) .edge Graph.edgeCount
      (Edge.goesWith input) := by
  obtain ⟨hlength, hnodup, hmem⟩ := hw.allEdges_listed
  obtain ⟨hleft, -, -⟩ := h.wellFormed.allEdges_listed
  refine ⟨s.graph.allEdges, hnodup, submit_edges hw, ?_, ?_, fun edge hedge hstays => ?_⟩
  · rw [← h.allEdges]
    exact submit_edges (s := { s with graph }) h.wellFormed
  · rw [h.allEdges] at hleft
    rw [← hlength, ← hleft, Nat.add_comm]
    exact (List.length_eq_length_filter_add _).symm
  · obtain ⟨slot, hslot⟩ := (hmem edge).mp hedge
    have hin : graph.edgeIn? slot = some edge := by
      rw [h.edgeIn?, hslot]
      exact Option.filter_some_pos (congrArg Bool.not hstays)
    obtain ⟨e, he, -⟩ := Option.bind_eq_some_iff.mp hin
    have hafter := h.wellFormed.get?_of_edgeIn? hin
    have hbefore := hw.get?_of_edgeIn? hslot
    refine ⟨⟨e.id, e.label, e.properties⟩, ?_, ?_⟩
    · simp [Graph.element?, Graph.liveEdge?, hbefore, h.edges slot e he]
    · simp [Graph.element?, Graph.liveEdge?, hafter, he]

/-- Whatever reaches a step that removes elements, it succeeds and lets nothing out. The vertices
that go are those it was given, and the edges that go are those it was given and those of a vertex
that goes. -/
theorem drop_removes (h : s.Reachable) (input : List Value) :
    ∃ next, (Step.onValues .write [.drop] input).Leads s [] next ∧ next.ids = s.ids ∧
      s.Loses next (.root [.vertices []]) .vertex Graph.vertexCount
        (Vertex.goesWith input) ∧
      s.Loses next (.root [.edges []]) .edge Graph.edgeCount (Edge.goesWith input) := by
  have hw := h.sound.graph_wellFormed
  have hwithout := hw.without_removeAll input
  exact ⟨_, Step.drop_leads input s, rfl, loses_vertices hw hwithout, loses_edges hw hwithout⟩

/-- One of two users, named twice, an edge that goes with that user, and a number. -/
def untangling : List Value :=
  [.vertex ⟨.text "a", "User"⟩, .edge ⟨.text "", "FOLLOWS", .text "a", .text "b"⟩, .int 7,
    .vertex ⟨.text "a", "User"⟩]

theorem drop_removes_untangling :
    ∃ next, (Step.onValues .write [.drop] untangling).Leads knotted [] next ∧
      next.submit (.root [.vertices []]) = (.ok [.vertex ⟨.text "b", "User"⟩], next) ∧
      next.graph.edgeCount = 0 := by
  obtain ⟨next, hleads, -, ⟨vs, -, hvertices, hleft, -⟩, ⟨es, -, hedges, -, hcount, -⟩⟩ :=
    drop_removes knotted_reachable untangling
  have hvs : vs.map Value.vertex = [.vertex ⟨.text "a", "User"⟩, .vertex ⟨.text "b", "User"⟩] :=
    Except.ok.inj (congrArg Prod.fst (hvertices.symm.trans rfl))
  have hes : es.map Value.edge =
      [.edge ⟨.text "", "FOLLOWS", .text "a", .text "b"⟩,
        .edge ⟨.text "x", "KNOWS", .text "a", .text "a"⟩,
        .edge ⟨.text "xx", "FOLLOWS", .text "a", .text "b"⟩] :=
    Except.ok.inj (congrArg Prod.fst (hedges.symm.trans rfl))
  obtain rfl : vs = [⟨.text "a", "User"⟩, ⟨.text "b", "User"⟩] :=
    List.map_injective_iff.mpr (fun _ _ h => Value.vertex.inj h) hvs
  obtain rfl : es = [⟨.text "", "FOLLOWS", .text "a", .text "b"⟩,
      ⟨.text "x", "KNOWS", .text "a", .text "a"⟩,
      ⟨.text "xx", "FOLLOWS", .text "a", .text "b"⟩] :=
    List.map_injective_iff.mpr (fun _ _ h => Value.edge.inj h) hes
  have hlost : next.graph.edgeCount + 3 = 3 := hcount
  exact ⟨next, hleads, hleft, by omega⟩

end Store

end GraphGateway
