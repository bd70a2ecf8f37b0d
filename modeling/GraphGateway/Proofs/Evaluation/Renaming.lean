import GraphGateway.Proofs.Evaluation.Hops
import GraphGateway.Proofs.Graph.Renaming

/-!
# Giving a vertex another identifier

Writing the identifier of a vertex is a renaming. It is refused where another
vertex has the new identifier, before anything is changed. Otherwise everything
that can be seen of the store afterwards is what could be seen before, in the
same order, with the new identifier in place of the old one.
-/

namespace GraphGateway

namespace Eval

theorem Fails.change {α : Type} (write : Graph → Except EvaluationError (α × Graph)) {s : Store}
    {err : EvaluationError} (h : write s.graph = .error err) :
    Fails (change .write write) s err := by
  unfold Fails
  rw [runOn_change_write, h]

theorem Fails.each_singleton {α β : Type} {f : α → Eval β} {a : α} {s : Store}
    {err : EvaluationError} (h : Fails (f a) s err) : Fails (Eval.each f [a]) s err :=
  (h.bind fun b => Pure.pure [b]).bind _

end Eval

namespace Graph

/-- The ends of an edge are the vertices they were, also the one that is called differently now. -/
theorem Renames.endOf? {g next : Graph} {old new : ElementId} (h : g.Renames old new next)
    (side : Side) (e : Edge) : next.endOf? side e = (g.endOf? side e).map (.renamed old new) := by
  unfold Graph.endOf?
  rw [h.edges, h.edgeIndex, Option.map_bind]
  exact congrArg (Option.bind _) (funext fun r => h.vertexIn? _)

end Graph

namespace Step

variable {s : Store} {v : Vertex} {r : VertexRecord} {value : Value} {id : ElementId}

def rekey (value : Value) (v : Vertex) : Eval (List Value) :=
  onValues .write [.property (.token .id) value] [.vertex v]

theorem rekey_eq (hid : value.asId? = some id) :
    rekey value v =
      Eval.each
        (fun _ => Eval.change .write (fun g => g.renameVertex v.id id) >>= fun renamed =>
          pure (.vertex renamed))
        [v] := by
  have hset : Stage.setProperty .write (.token .id) value (.vertex v) =
      Eval.change .write (fun g => g.renameVertex v.id id) >>= fun renamed =>
        pure (.vertex renamed) := by
    simp only [Stage.setProperty, hid]
  unfold rekey
  rw [onValues_singleton rfl]
  show Eval.each (Stage.setProperty .write (.token .id) value) [.vertex v] = _
  simp only [Eval.each, Eval.collect, hset]

theorem rekey_leads (hw : s.graph.WellFormed) (hv : s.graph.recordOf? v.id = some r)
    (hid : value.asId? = some id) (hfree : id = v.id ∨ s.graph.recordOf? id = none) :
    ∃ graph, s.graph.Renames v.id id graph ∧
      (rekey value v).Leads s [.vertex ⟨id, r.label⟩] { s with graph } := by
  obtain ⟨graph, hrename⟩ := hw.renameVertex_of_free hv hfree
  have hchange := Eval.Leads.change (fun g => g.renameVertex v.id id) hrename
  rw [rekey_eq hid]
  exact ⟨graph, hw.renames hrename, (hchange.map Value.vertex).each_singleton⟩

theorem rekey_fails (hw : s.graph.WellFormed) (hv : s.graph.recordOf? v.id = some r)
    (hid : value.asId? = some id) (hne : id ≠ v.id) (htaken : s.graph.recordOf? id ≠ none) :
    (rekey value v).Fails s (.vertexExists id) := by
  have hrefused := hw.renameVertex_of_taken hv hne htaken
  have hchange := Eval.Fails.change (fun g => g.renameVertex v.id id) hrefused
  rw [rekey_eq hid]
  exact Eval.Fails.each_singleton (hchange.bind _)

end Step

namespace Store

variable {s next : Store} {old new : ElementId}

/-- All that can be seen of a store is what could be seen before, with one identifier in place of
another: both listings, the records of all elements, the edges and neighbours of every vertex, and
the ends of every edge. -/
structure Renamed (s : Store) (old new : ElementId) (next : Store) : Prop where
  ids : next.ids = s.ids
  vertices : ∃ vs : List Vertex,
    s.submit (.root [.vertices []]) = (.ok (vs.map .vertex), s) ∧
      next.submit (.root [.vertices []]) =
        (.ok ((vs.map (.renamed old new)).map .vertex), next)
  edges : ∃ es : List Edge,
    s.submit (.root [.edges []]) = (.ok (es.map .edge), s) ∧
      next.submit (.root [.edges []]) = (.ok ((es.map (.renamed old new)).map .edge), next)
  record : ∀ id r, s.graph.recordOf? id = some r →
    next.graph.recordOf? (.rename old new id) = some (r.renamed old new)
  edge : ∀ e : Edge, next.graph.element? (.edge e) = s.graph.element? (.edge e)
  hop : ∀ access direction labels v r, s.graph.recordOf? v.id = some r → ∃ found,
    s.Finds access [.hop direction labels] [v] found ∧
      next.Finds access [.hop direction labels] [v.renamed old new]
        (found.map (.renamed old new))
  incident : ∀ access side labels v r, s.graph.recordOf? v.id = some r → ∃ found : List Edge,
    (Step.onValues access [.incident side labels] [.vertex v]).Yields s (found.map .edge) ∧
      (Step.onValues access [.incident side labels] [.vertex (v.renamed old new)]).Yields next
        ((found.map (.renamed old new)).map .edge)
  endpoint : ∀ access side e, ∃ found : List Vertex,
    (Step.onValues access [.endpoint side] [.edge e]).Yields s (found.map .vertex) ∧
      (Step.onValues access [.endpoint side] [.edge e]).Yields next
        ((found.map (.renamed old new)).map .vertex)

theorem renamed_of_renames (hw : s.graph.WellFormed) {graph : Graph}
    (h : s.graph.Renames old new graph) : s.Renamed old new { s with graph } where
  ids := rfl
  vertices := by
    refine ⟨_, submit_vertices hw, ?_⟩
    rw [← h.allVertices]
    exact submit_vertices (s := { s with graph }) h.wellFormed
  edges := by
    refine ⟨_, submit_edges hw, ?_⟩
    rw [← h.allEdges]
    exact submit_edges (s := { s with graph }) h.wellFormed
  record _ _ hr := h.recordOf? hw hr
  edge e := h.element?_edge e
  hop access direction labels v r hr := by
    obtain ⟨-, -, slot, hslot, -⟩ := hw.recordOf?_eq_some hr
    refine ⟨_, finds_hop_singleton hw access direction labels v, ?_⟩
    rw [← h.around hw direction labels hslot]
    exact finds_hop_singleton (s := { s with graph }) h.wellFormed access direction labels _
  incident access side labels v r hr := by
    obtain ⟨-, -, slot, hslot, -⟩ := hw.recordOf?_eq_some hr
    have hbefore := Step.incident_yields hw access side labels [v]
    have hafter := Step.incident_yields (s := { s with graph }) h.wellFormed access side labels
      [v.renamed old new]
    rw [List.flatMap_singleton] at hbefore hafter
    refine ⟨_, hbefore, ?_⟩
    rw [← h.incidence hw side labels hslot]
    exact hafter
  endpoint access side e := by
    have hbefore := Step.endpoint_yields hw access side [e]
    have hafter := Step.endpoint_yields (s := { s with graph }) h.wellFormed access side [e]
    refine ⟨_, hbefore, ?_⟩
    rw [List.map_filterMap]
    simp only [← h.endOf?]
    exact hafter

/-- Writing the identifier of a vertex that exists succeeds exactly where the identifier is its own
or no vertex has it. The vertex is then let out under that identifier and found under it, and
otherwise the store shows what it did before. Where another vertex has the identifier, the write is
refused and the store is left as it is. -/
theorem rekey_renames (h : s.Reachable) {v : Vertex} {r : VertexRecord}
    (hv : s.graph.recordOf? v.id = some r) {value : Value} {id : ElementId}
    (hid : value.asId? = some id) :
    (id = v.id ∨ s.graph.recordOf? id = none → ∃ next,
      (Step.rekey value v).Leads s [.vertex ⟨id, r.label⟩] next ∧ s.Renamed v.id id next ∧
        next.submit (.root [.vertices [value]]) = (.ok [.vertex ⟨id, r.label⟩], next)) ∧
    (¬ (id = v.id ∨ s.graph.recordOf? id = none) →
      (Step.rekey value v).Fails s (.vertexExists id)) := by
  have hw := h.sound.graph_wellFormed
  refine ⟨fun hfree => ?_, fun htaken => ?_⟩
  · obtain ⟨graph, hrenames, hleads⟩ := Step.rekey_leads hw hv hid hfree
    have hfound : graph.recordOf? id = some (r.renamed v.id id) := by
      have hrecord := hrenames.recordOf? hw hv
      rwa [ElementId.rename_old] at hrecord
    have hselect := hrenames.wellFormed.selectVertices_exact hid hfound
    obtain ⟨hrid, -⟩ := hw.recordOf?_eq_some hv
    have hreference : (r.renamed v.id id).reference = ⟨id, r.label⟩ := by
      simp [VertexRecord.reference, VertexRecord.renamed, hrid, ElementId.rename_old]
    refine ⟨_, hleads, renamed_of_renames hw hrenames, ?_⟩
    rw [submit_look (.vertices [value]) (fun g => g.selectVertices [value]) rfl rfl rfl, hselect,
      hreference]
  · have hnot := not_or.mp htaken
    exact Step.rekey_fails hw hv hid hnot.1 hnot.2

theorem rekey_renames_knotted :
    ∃ next,
      (Step.rekey (.int 7) ⟨.text "a", "User"⟩).Leads knotted [.vertex ⟨.int 7, "User"⟩] next ∧
      knotted.Renamed (.text "a") (.int 7) next ∧
      next.submit (.root [.vertices [.int 7]]) = (.ok [.vertex ⟨.int 7, "User"⟩], next) := by
  have hlive : knotted.graph.recordOf? (.text "a") = some ⟨.text "a", "User", .empty⟩ := rfl
  exact (rekey_renames (v := ⟨.text "a", "User"⟩) knotted_reachable hlive rfl).1 (.inr rfl)

end Store

end GraphGateway
