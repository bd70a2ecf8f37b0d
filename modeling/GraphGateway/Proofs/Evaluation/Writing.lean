import GraphGateway.Proofs.Evaluation.Compose
import GraphGateway.Proofs.Graph.Growth

/-!
# Adding elements step by step

What a traversal does that adds a vertex and goes on to write to it: the store is
the old one with the vertex as it has become. And what a traversal does that adds
an edge from one vertex to another: it needs both ends, and without the far one
it fails before anything is written.
-/

namespace GraphGateway

namespace Step

variable {g : Graph} {r : VertexRecord}

/-! ## New vertices -/

theorem addVertex_leads {s : Store} (h : s.graph.vertexIndex.contains s.ids.next.1 = false)
    (label : String) :
    (Stage.addVertex .write label).Leads s [.vertex ⟨s.ids.next.1, label⟩]
      ⟨s.graph.withVertex ⟨s.ids.next.1, label, .empty⟩, s.ids.next.2⟩ := by
  have hinsert := Eval.Leads.change (s := { s with ids := s.ids.next.2 })
    (fun g => g.insertVertex s.ids.next.1 label) (Graph.insertVertex_new h label)
  exact (Eval.Leads.fresh s).bind (hinsert.map fun v => [Value.vertex v])

/-- The vertex that was added last is given another identifier. -/
theorem rename_leads (ids : IdSource) (hw : g.WellFormed) {new : ElementId}
    (hr : g.vertexIndex.contains r.id = false) (hnew : g.vertexIndex.contains new = false)
    (hne : r.id ≠ new) :
    (onValues .write [.property (.token .id) new.toValue] [.vertex r.reference]).Leads
      ⟨g.withVertex r, ids⟩ [.vertex ({ r with id := new } : VertexRecord).reference]
      ⟨g.withVertex { r with id := new }, ids⟩ := by
  have hrename : (Stage.setProperty .write (.token .id) new.toValue (.vertex r.reference)).Leads
      ⟨g.withVertex r, ids⟩ (.vertex ({ r with id := new } : VertexRecord).reference)
      ⟨g.withVertex { r with id := new }, ids⟩ := by
    have hchange := Eval.Leads.change (s := ⟨g.withVertex r, ids⟩)
      (fun g => g.renameVertex r.id new) (Graph.renameVertex_withVertex hw hr hnew hne)
    unfold Stage.setProperty
    simp only [Value.asId?_toValue]
    exact hchange.map Value.vertex
  rw [onValues_singleton rfl]
  exact Eval.Leads.each_singleton hrename

theorem setProperty_leads (ids : IdSource) (key : String) (value : Value) :
    (onValues .write [.property (.name key) value] [.vertex r.reference]).Leads
      ⟨g.withVertex r, ids⟩ [.vertex r.reference]
      ⟨g.withVertex { r with properties := r.properties.insert key value }, ids⟩ := by
  have hset : (Stage.setProperty .write (.name key) value (.vertex r.reference)).Leads
      ⟨g.withVertex r, ids⟩ (.vertex r.reference)
      ⟨g.withVertex { r with properties := r.properties.insert key value }, ids⟩ := by
    have hwrite : ((g.withVertex r).setVertexProperty r.id key value).map (fun g => ((), g)) =
        .ok ((), g.withVertex { r with properties := r.properties.insert key value }) := by
      rw [Graph.setVertexProperty_withVertex]
      rfl
    have hchange := Eval.Leads.change (s := ⟨g.withVertex r, ids⟩)
      (fun g => (g.setVertexProperty r.id key value).map ((), ·)) hwrite
    exact hchange.map fun _ => Value.vertex r.reference
  rw [onValues_singleton rfl]
  exact Eval.Leads.each_singleton hset

def writing (properties : List (String × Value)) : List Step :=
  properties.map fun (key, value) => .property (.name key) value

theorem writing_standsAlone (properties : List (String × Value)) :
    standsAlone (writing properties) = true := by
  cases properties <;> rfl

theorem writing_leads (g : Graph) (ids : IdSource) (properties : List (String × Value))
    (r : VertexRecord) :
    (onValues .write (writing properties) [.vertex r.reference]).Leads
      ⟨g.withVertex r, ids⟩ [.vertex r.reference]
      ⟨g.withVertex { r with properties := r.properties.insertAll properties }, ids⟩ := by
  induction properties generalizing r with
  | nil => exact (Eval.Yields.pure _).leads
  | cons head rest ih =>
      obtain ⟨key, value⟩ := head
      have hrest := ih { r with properties := r.properties.insert key value }
      have hsplit : writing ((key, value) :: rest) =
          [.property (.name key) value] ++ writing rest := rfl
      rw [hsplit, onValues_append (writing_standsAlone rest)]
      exact (setProperty_leads ids key value).bind hrest

/-! ## New edges -/

/-- The steps that lead an edge from every vertex to the vertices that a traversal starts from. -/
def joining (label : String) (target : Value) : List Step :=
  [.addEdge label, .modulator .target (.anonymous [.vertices [target]])]

def targetStage (target : Value) : Stage :=
  ⟨modulator .target (.anonymous [.vertices [target]]),
    (modulator .target (.anonymous [.vertices [target]])).childRoutine .write⟩

section Joining

variable {s : Store} {label : String} {target : Value}

theorem joining_eq (input : List Value) :
    onValues .write (joining label target) input =
      Eval.collect
        (fun v => Stage.addEdge .write label [targetStage target] (some [v])) input := by
  have hmodulator : ∀ m ∈ [modulator .target (.anonymous [.vertices [target]])],
      m.isModulator = true := by
    simp [isModulator]
  unfold joining
  rw [onValues_modulated rfl hmodulator]
  rfl

theorem target_yields {found : List Value} (h : s.graph.selectVertices [target] = .ok found)
    (v : Value) :
    ((targetStage target).child (some [v])).Yields s found := by
  have hlook : (onValues .write [.vertices [target]] [v]).Yields s
      (Stage.perValue found (some [v])) := by
    rw [onValues_singleton rfl]
    exact Eval.Yields.bind (Eval.Yields.look h) (Eval.Yields.pure _)
  have hfound : Stage.perValue found (some [v]) = found := by simp [Stage.perValue]
  rwa [hfound] at hlook

theorem edgeEnd_yields {m : Stage} {start : Option (List Value)} {w : Vertex} {rest : List Value}
    (h : (m.child start).Yields s (.vertex w :: rest)) :
    (Stage.edgeEnd (some m) start).Yields s w.id := by
  unfold Stage.edgeEnd
  refine h.bind (Eval.Yields.bind (Eval.Yields.pure _) ?_)
  exact Eval.Yields.pure w.id

theorem edgeEnd_fails {m : Stage} {start : Option (List Value)}
    (h : (m.child start).Yields s []) : (Stage.edgeEnd (some m) start).Fails s .noEndpoint := by
  unfold Stage.edgeEnd
  refine Eval.Fails.after h (Eval.Fails.after (Eval.Yields.pure _) ?_)
  exact .throw _ _

/-- Nothing is joined where nothing starts. -/
theorem joining_nil : (onValues .write (joining label target) []).Yields s [] := by
  rw [joining_eq]
  exact Eval.Yields.pure []

/-- Without a vertex to lead to there is no edge, and nothing is written. -/
theorem joining_fails (label : String) (h : s.graph.selectVertices [target] = .ok []) (v : Vertex) :
    (onValues .write (joining label target) [.vertex v]).Fails s .noEndpoint := by
  have hsource : (Stage.edgeEnd none (some [.vertex v])).Yields s v.id := rfl
  have htarget := edgeEnd_fails (m := targetStage target) (target_yields h (.vertex v))
  have hfails : (Stage.addEdge .write label [targetStage target] (some [.vertex v])).Fails s
      .noEndpoint := Eval.Fails.after hsource (htarget.bind _)
  rw [joining_eq]
  exact hfails.bind _

theorem joining_leads (label : String) {v w : Vertex} {near far : Nat}
    (h : s.graph.selectVertices [target] = .ok [.vertex w])
    (hv : s.graph.vertexIndex.get? v.id = some near)
    (hw : s.graph.vertexIndex.get? w.id = some far) :
    (onValues .write (joining label target) [.vertex v]).Leads s
      [.edge ⟨s.ids.next.1, label, v.id, w.id⟩]
      ⟨s.graph.withEdge ⟨s.ids.next.1, label, .empty, near, far⟩, s.ids.next.2⟩ := by
  have hsource : (Stage.edgeEnd none (some [.vertex v])).Yields s v.id := rfl
  have htarget := edgeEnd_yields (m := targetStage target) (target_yields h (.vertex v))
  have hinsert := Eval.Leads.change (s := { s with ids := s.ids.next.2 })
    (fun g => g.insertEdge s.ids.next.1 label v.id w.id) (Graph.insertEdge_live hv hw label)
  have hadd : (Stage.addEdge .write label [targetStage target] (some [.vertex v])).Leads s
      [.edge ⟨s.ids.next.1, label, v.id, w.id⟩]
      ⟨s.graph.withEdge ⟨s.ids.next.1, label, .empty, near, far⟩, s.ids.next.2⟩ :=
    hsource.leads.bind (htarget.leads.bind
      ((Eval.Leads.fresh s).bind (hinsert.map fun e => [Value.edge e])))
  rw [joining_eq]
  exact Eval.Leads.collect_singleton hadd

end Joining

end Step

end GraphGateway
