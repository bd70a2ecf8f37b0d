import GraphGateway.Proofs.Evaluation.Reachable

/-!
# Listing a graph

In every store that operations lead to, the traversals that list all vertices or
all edges name each live element exactly once, as many as the counts say, and no
evaluation comes upon an index that leads to a vacant slot.
-/

namespace GraphGateway

section Listing

variable {α β : Type} {idOf : α → ElementId} {arena : Arena α} {index : OrderedMap ElementId Nat}
  {read : Nat → Option β} {key : β → ElementId}

private theorem map_filterMap_live {live : List (Nat × α)}
    (h : ∀ p ∈ live, ∃ b, read p.1 = some b ∧ key b = idOf p.2) :
    ((live.map Prod.fst).filterMap read).map key = live.map fun p => idOf p.2 := by
  induction live with
  | nil => rfl
  | cons p rest ih =>
      obtain ⟨b, hread, hkey⟩ := h p List.mem_cons_self
      have hrest := ih fun q hq => h q (List.mem_cons_of_mem p hq)
      rw [List.map_cons, List.filterMap_cons_some hread, List.map_cons, List.map_cons, hrest, hkey]

/-- Reading every occupied slot lists what can be read at all, each once. -/
theorem Indexed.listed (h : Indexed idOf arena index)
    (hlive : ∀ slot r, arena.get? slot = some r → ∃ b, read slot = some b ∧ key b = idOf r)
    (hread : ∀ slot b, read slot = some b → ∃ r, arena.get? slot = some r) :
    ((Graph.selectSlots arena index []).filterMap read).length = index.size ∧
      ((Graph.selectSlots arena index []).filterMap read).Nodup ∧
      ∀ b, b ∈ (Graph.selectSlots arena index []).filterMap read ↔ ∃ slot, read slot = some b := by
  have hslots : Graph.selectSlots arena index [] = arena.live.map Prod.fst := rfl
  have hkeys : ((Graph.selectSlots arena index []).filterMap read).map key =
      arena.live.map fun p => idOf p.2 := by
    rw [hslots]
    refine map_filterMap_live fun p hp => ?_
    exact hlive p.1 p.2 ((Arena.mem_live arena p.1 p.2).mp hp)
  refine ⟨?_, ?_, ?_⟩
  · have hlength := congrArg List.length hkeys
    rw [List.length_map, List.length_map] at hlength
    rw [hlength, h.size_eq]
  · have hids := h.live_ids_nodup
    rw [← hkeys] at hids
    exact List.Nodup.of_map key hids
  · intro b
    rw [List.mem_filterMap]
    constructor
    · intro hfound
      rcases hfound with ⟨slot, -, hb⟩
      exact ⟨slot, hb⟩
    · intro hfound
      rcases hfound with ⟨slot, hb⟩
      obtain ⟨r, hr⟩ := hread slot b hb
      refine ⟨slot, ?_, hb⟩
      rw [hslots]
      exact (Arena.mem_live_slots arena slot).mpr ⟨r, hr⟩

end Listing

namespace Graph

variable {g : Graph}

def allVertices (g : Graph) : List Vertex :=
  (g.vertices.live.map Prod.fst).filterMap g.vertexIn?

def allEdges (g : Graph) : List Edge :=
  (g.edges.live.map Prod.fst).filterMap g.edgeIn?

theorem WellFormed.allVertices_listed (hw : g.WellFormed) :
    g.allVertices.length = g.vertexCount ∧ g.allVertices.Nodup ∧
      ∀ v, v ∈ g.allVertices ↔ ∃ slot, g.vertexIn? slot = some v := by
  have hlive : ∀ slot r, g.vertices.get? slot = some r →
      ∃ v, g.vertexIn? slot = some v ∧ v.id = r.id :=
    fun slot r hr => ⟨r.reference, vertexIn?_of_live hr, rfl⟩
  have hread : ∀ slot v, g.vertexIn? slot = some v → ∃ r, g.vertices.get? slot = some r := by
    intro slot v hv
    obtain ⟨r, hr, -⟩ := Option.map_eq_some_iff.mp hv
    exact ⟨r, hr⟩
  exact hw.vertices_indexed.listed hlive hread

theorem WellFormed.allEdges_listed (hw : g.WellFormed) :
    g.allEdges.length = g.edgeCount ∧ g.allEdges.Nodup ∧
      ∀ e, e ∈ g.allEdges ↔ ∃ slot, g.edgeIn? slot = some e := by
  have hlive : ∀ slot r, g.edges.get? slot = some r →
      ∃ e, g.edgeIn? slot = some e ∧ e.id = r.id := by
    intro slot r hr
    obtain ⟨e, he, -, hid, -⟩ := hw.edgeAt_of_live hr
    exact ⟨e, he, hid⟩
  have hread : ∀ slot e, g.edgeIn? slot = some e → ∃ r, g.edges.get? slot = some r := by
    intro slot e he
    obtain ⟨r, hr, -⟩ := Option.bind_eq_some_iff.mp he
    exact ⟨r, hr⟩
  exact hw.edges_indexed.listed hlive hread

theorem WellFormed.selectVertices_eq_ok (hw : g.WellFormed) :
    g.selectVertices [] = .ok (g.allVertices.map .vertex) := by
  rw [hw.selectVertices, allVertices, List.map_filterMap]
  rfl

theorem WellFormed.selectEdges_eq_ok (hw : g.WellFormed) :
    g.selectEdges [] = .ok (g.allEdges.map .edge) := by
  rw [hw.selectEdges, allEdges, List.map_filterMap]
  rfl

theorem WellFormed.vertices_listed (hw : g.WellFormed) :
    ∃ vs : List Vertex, g.selectVertices [] = .ok (vs.map .vertex) ∧
      vs.length = g.vertexCount ∧ vs.Nodup ∧ ∀ v, v ∈ vs ↔ ∃ slot, g.vertexIn? slot = some v :=
  ⟨g.allVertices, hw.selectVertices_eq_ok, hw.allVertices_listed⟩

theorem WellFormed.edges_listed (hw : g.WellFormed) :
    ∃ es : List Edge, g.selectEdges [] = .ok (es.map .edge) ∧
      es.length = g.edgeCount ∧ es.Nodup ∧ ∀ e, e ∈ es ↔ ∃ slot, g.edgeIn? slot = some e :=
  ⟨g.allEdges, hw.selectEdges_eq_ok, hw.allEdges_listed⟩

end Graph

namespace Store

/-- A step that only looks at the graph, on its own. -/
theorem submit_look (step : Step) (read : Graph → Except EvaluationError (List Value))
    (hstep : step.isModulator = false) (hread : step.isMutation = false)
    (h : Stage.applyToGraph .read ⟨step, step.childRoutine .read⟩ [] = Eval.look read) (s : Store) :
    s.submit (.root [step]) = (read s.graph, s) := by
  have haccess : accessFor (.root [step]) = .read := by
    simp [accessFor, Traversal.root, Traversal.isMutating, Step.anyMutation, hread]
  have hroutine : (Traversal.root [step]).routine .read none = Eval.look read := by
    have hcheck : Stage.checkModulators step [] = pure () := rfl
    simp [Traversal.routine_eq, Traversal.root, Traversal.steps, Step.stages, Stage.run, hstep,
      hcheck, Stage.apply, h]
  rw [← Eval.runOn_look read s, ← hroutine, ← haccess]
  rfl

theorem submit_vertices {s : Store} (hw : s.graph.WellFormed) :
    s.submit (.root [.vertices []]) = (.ok (s.graph.allVertices.map .vertex), s) := by
  rw [← hw.selectVertices_eq_ok]
  exact submit_look (.vertices []) (fun g => g.selectVertices []) rfl rfl rfl s

theorem submit_edges {s : Store} (hw : s.graph.WellFormed) :
    s.submit (.root [.edges []]) = (.ok (s.graph.allEdges.map .edge), s) := by
  rw [← hw.selectEdges_eq_ok]
  exact submit_look (.edges []) (fun g => g.selectEdges []) rfl rfl rfl s

/-- Whatever happens to a store, its indexes stay in step with what it holds. -/
theorem performAll_represents {issue : Nat → String} (hissue : Function.Injective issue)
    (ops : List Operation) :
    ((start issue).performAll ops).graph.WellFormed ∧
      (∃ vs : List Vertex,
        ((start issue).performAll ops).submit (.root [.vertices []]) =
          (.ok (vs.map .vertex), (start issue).performAll ops) ∧
        vs.length = ((start issue).performAll ops).graph.vertexCount ∧ vs.Nodup ∧
        ∀ v, v ∈ vs ↔ ∃ slot, ((start issue).performAll ops).graph.vertexIn? slot = some v) ∧
      (∃ es : List Edge,
        ((start issue).performAll ops).submit (.root [.edges []]) =
          (.ok (es.map .edge), (start issue).performAll ops) ∧
        es.length = ((start issue).performAll ops).graph.edgeCount ∧ es.Nodup ∧
        ∀ e, e ∈ es ↔ ∃ slot, ((start issue).performAll ops).graph.edgeIn? slot = some e) ∧
      ∀ (op : Operation) (slot : Nat),
        (op.perform ((start issue).performAll ops)).1 ≠ .error (.danglingVertex slot) ∧
          (op.perform ((start issue).performAll ops)).1 ≠ .error (.danglingEdge slot) := by
  have hsound : ((start issue).performAll ops).Sound := (Sound.start hissue).performAll ops
  have hw := hsound.graph_wellFormed
  obtain ⟨vs, hvs, hvertices⟩ := hw.vertices_listed
  obtain ⟨es, hes, hedges⟩ := hw.edges_listed
  refine ⟨hw, ⟨vs, ?_, hvertices⟩, ⟨es, ?_, hedges⟩, fun op slot => ⟨?_, ?_⟩⟩
  · rw [← hvs]
    exact submit_look (.vertices []) (fun g => g.selectVertices []) rfl rfl rfl _
  · rw [← hes]
    exact submit_look (.edges []) (fun g => g.selectEdges []) rfl rfl rfl _
  · intro h
    have hordinary := (hsound.perform op).2 _ h
    cases hordinary
  · intro h
    have hordinary := (hsound.perform op).2 _ h
    cases hordinary

theorem performAll_represents_follower :
    ∃ es : List Edge, follower.submit (.root [.edges []]) = (.ok (es.map .edge), follower) ∧
      es.length = 1 := by
  obtain ⟨-, -, ⟨es, hes, hlength, -⟩, -⟩ := performAll_represents unary_injective
    [.addVertex (.text "u1") "User" [("name", .string "Ann")],
      .addVertex (.text "u2") "User" [("name", .string "Bob")],
      .addEdge "FOLLOWS" (.text "u1") (.text "u2")]
  exact ⟨es, hes, hlength⟩

end Store

end GraphGateway
