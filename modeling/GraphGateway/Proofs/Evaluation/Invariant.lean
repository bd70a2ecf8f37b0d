import GraphGateway.Proofs.Except
import GraphGateway.Proofs.Evaluation.Effects
import GraphGateway.Proofs.Evaluation.Logic

/-!
# Invariants of evaluation

An evaluation touches a store through a handful of effects only. A kind of store
that none of these effects leaves is therefore never left by a whole evaluation,
however deeply its child traversals are nested and wherever it fails.
-/

namespace GraphGateway

/-- A kind of store with well-formed graphs that no single effect under an access leaves. -/
structure Invariant (access : Access) (I : Store → Prop) : Prop where
  wellFormed : ∀ s, I s → s.graph.WellFormed
  draw : access = .write → ∀ s, I s → I { s with ids := s.ids.next.2 }
  insertVertex : access = .write → ∀ s label v graph, I s →
    s.graph.insertVertex s.ids.next.1 label = .ok (v, graph) → I ⟨graph, s.ids.next.2⟩
  insertEdge : access = .write → ∀ s label source target e graph, I s →
    s.graph.insertEdge s.ids.next.1 label source target = .ok (e, graph) → I ⟨graph, s.ids.next.2⟩
  setVertexProperty : access = .write → ∀ s id key value graph, I s →
    s.graph.setVertexProperty id key value = .ok graph → I { s with graph }
  setEdgeProperty : access = .write → ∀ s id key value graph, I s →
    s.graph.setEdgeProperty id key value = .ok graph → I { s with graph }
  renameVertex : access = .write → ∀ s old new v graph, I s →
    s.graph.renameVertex old new = .ok (v, graph) → I { s with graph }
  removeVertex : access = .write → ∀ s id, I s → I { s with graph := s.graph.removeVertex id }
  removeEdge : access = .write → ∀ s id, I s → I { s with graph := s.graph.removeEdge id }

/-- No reading of a well-formed graph meets a vacant slot. -/
theorem Reading.error_isOrdinary {g : Graph} (hw : g.WellFormed) {α : Type}
    {read : Graph → Except EvaluationError α} (h : Reading read) {err : EvaluationError}
    (he : read g = .error err) : err.isOrdinary = true := by
  induction h with
  | selectVertices ids => exact hw.selectVertices_error he
  | selectEdges ids => exact hw.selectEdges_error he
  | hasLabel labels input => cases he
  | has key p input => cases he
  | hop direction labels v => exact hw.hop_error he
  | incidentEdges side labels v => exact hw.incidentEdges_error he
  | endpoint side v => exact hw.endpoint_error he
  | valueMap tokens keys v => exact Graph.valueMap_error he
  | element step v => exact Graph.element_error he
  | map f _ ih => exact ih (Except.map_eq_error.mp he)

namespace Invariant

variable {access : Access} {I : Store → Prop}

/-! ## Errors of writing -/

theorem insertVertex_error {g : Graph} {id : ElementId} {label : String} {err : EvaluationError}
    (h : g.insertVertex id label = .error err) : err.isOrdinary = true := by
  unfold Graph.insertVertex at h
  split at h
  · cases h
    rfl
  · cases h

theorem vertexSlot_error {g : Graph} {id : ElementId} {err : EvaluationError}
    (h : g.vertexSlot id = .error err) : err.isOrdinary = true := by
  unfold Graph.vertexSlot at h
  split at h
  · cases h
  · cases h
    rfl

theorem edgeSlot_error {g : Graph} {id : ElementId} {err : EvaluationError}
    (h : g.edgeSlot id = .error err) : err.isOrdinary = true := by
  unfold Graph.edgeSlot at h
  split at h
  · cases h
  · cases h
    rfl

theorem insertEdge_error {g : Graph} {id source target : ElementId} {label : String}
    {err : EvaluationError} (h : g.insertEdge id label source target = .error err) :
    err.isOrdinary = true := by
  unfold Graph.insertEdge at h
  cases hs : g.vertexSlot source with
  | error e =>
      rw [hs] at h
      cases h
      exact vertexSlot_error hs
  | ok s =>
      cases ht : g.vertexSlot target with
      | error e =>
          rw [hs, ht] at h
          cases h
          exact vertexSlot_error ht
      | ok t =>
          rw [hs, ht] at h
          cases h

theorem setVertexProperty_error {g : Graph} {id : ElementId} {key : String} {value : Value}
    {err : EvaluationError} (h : g.setVertexProperty id key value = .error err) :
    err.isOrdinary = true := by
  unfold Graph.setVertexProperty at h
  cases hs : g.vertexSlot id with
  | error e =>
      rw [hs] at h
      cases h
      exact vertexSlot_error hs
  | ok slot =>
      rw [hs] at h
      cases h

theorem setEdgeProperty_error {g : Graph} {id : ElementId} {key : String} {value : Value}
    {err : EvaluationError} (h : g.setEdgeProperty id key value = .error err) :
    err.isOrdinary = true := by
  unfold Graph.setEdgeProperty at h
  cases hs : g.edgeSlot id with
  | error e =>
      rw [hs] at h
      cases h
      exact edgeSlot_error hs
  | ok slot =>
      rw [hs] at h
      cases h

private theorem map_unit_eq_ok {outcome : Except EvaluationError Graph} {u : Unit} {graph : Graph}
    (h : (outcome.map fun g => ((), g)) = .ok (u, graph)) : outcome = .ok graph := by
  cases outcome with
  | error e => cases h
  | ok g => cases h; rfl

/-! ## Single effects -/

theorem addVertex (h : Invariant access I) (label : String) :
    (Stage.addVertex access label).Keeps I := by
  intro s hs
  cases access with
  | read => exact ⟨hs, fun err he => by cases he; rfl⟩
  | write =>
      unfold Stage.addVertex
      rw [Eval.runOn_bind, Eval.runOn_fresh_write]
      simp only
      rw [Eval.runOn_bind, Eval.runOn_change_write]
      cases hi : s.graph.insertVertex s.ids.next.1 label with
      | error e => exact ⟨h.draw rfl s hs, fun err he => by cases he; exact insertVertex_error hi⟩
      | ok found =>
          exact ⟨h.insertVertex rfl s label found.1 found.2 hs hi, fun err he => by cases he⟩

/-- Drawing an identifier and adding an edge under it. -/
theorem drawEdge (h : Invariant access I) (label : String) (source target : ElementId) :
    Eval.Keeps I (do
      let id ← Eval.fresh access
      let edge ← Eval.change access fun g => g.insertEdge id label source target
      return [Value.edge edge]) := by
  intro s hs
  cases access with
  | read => exact ⟨hs, fun err he => by cases he; rfl⟩
  | write =>
      rw [Eval.runOn_bind, Eval.runOn_fresh_write]
      simp only
      rw [Eval.runOn_bind, Eval.runOn_change_write]
      cases hi : s.graph.insertEdge s.ids.next.1 label source target with
      | error e => exact ⟨h.draw rfl s hs, fun err he => by cases he; exact insertEdge_error hi⟩
      | ok found =>
          exact ⟨h.insertEdge rfl s label source target found.1 found.2 hs hi,
            fun err he => by cases he⟩

theorem look (h : Invariant access I) {α : Type} {read : Graph → Except EvaluationError α}
    (hread : Reading read) : (Eval.look read).Keeps I :=
  .look fun s hs _ he => hread.error_isOrdinary (h.wellFormed s hs) he

theorem change (h : Invariant access I) {α : Type}
    {write : Graph → Except EvaluationError (α × Graph)} (hwrite : Writing write) :
    (Eval.change access write).Keeps I := by
  cases hwrite with
  | setVertexProperty id key value =>
      refine .change ?_ fun s err _ he => setVertexProperty_error (Except.map_eq_error.mp he)
      intro hw s u graph hs hp
      exact h.setVertexProperty hw s id key value graph hs (map_unit_eq_ok hp)
  | setEdgeProperty id key value =>
      refine .change ?_ fun s err _ he => setEdgeProperty_error (Except.map_eq_error.mp he)
      intro hw s u graph hs hp
      exact h.setEdgeProperty hw s id key value graph hs (map_unit_eq_ok hp)
  | renameVertex old new =>
      refine .change ?_ fun s err hs he => (h.wellFormed s hs).renameVertex_error he
      exact fun hw s v graph hs hr => h.renameVertex hw s old new v graph hs hr
  | removeVertex id =>
      refine .change ?_ fun s err _ he => by cases he
      intro hw s u graph hs hr
      cases hr
      exact h.removeVertex hw s id hs
  | removeEdge id =>
      refine .change ?_ fun s err _ he => by cases he
      intro hw s u graph hs hr
      cases hr
      exact h.removeEdge hw s id hs

/-! ## Traversals -/

theorem logic (h : Invariant access I) : Logic access True (Eval.Keeps I) where
  pure := .pure
  throw := fun herr _ => .throw herr
  bind := .bind
  look := h.look
  change := fun _ _ _ hwrite => h.change hwrite
  addVertex := fun _ => h.addVertex
  drawEdge := fun _ => h.drawEdge

/-- A whole traversal keeps an invariant, from whatever it starts and wherever it fails. -/
theorem routine (h : Invariant access I) (t : Traversal) (start : Option (List Value)) :
    (t.routine access start).Keeps I :=
  h.logic.routine t (fun _ => trivial) start

end Invariant

end GraphGateway
