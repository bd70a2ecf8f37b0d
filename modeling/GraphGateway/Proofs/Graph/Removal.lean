import GraphGateway.Proofs.Evaluation.Listing
import GraphGateway.Proofs.Graph.Growth

/-!
# Removal

What is left of a graph when some vertices and edges were removed. An edge goes
with either of its ends. Removing one thing after another leaves what removing
all of them at once would, whether or not they are named twice, exist no more or
are no elements at all.
-/

namespace GraphGateway

/-! ## What goes -/

/-- Whether a vertex goes when the element that a value refers to is removed. -/
def Value.takesVertex (x : Value) (v : Vertex) : Bool :=
  match x with
  | .vertex w => w.id == v.id
  | _ => false

/-- Whether an edge goes when the element that a value refers to is removed. -/
def Value.takesEdge (x : Value) (e : Edge) : Bool :=
  match x with
  | .vertex w => w.id == e.source || w.id == e.target
  | .edge f => f.id == e.id
  | _ => false

def Vertex.goesWith (input : List Value) (v : Vertex) : Bool :=
  input.any fun x => x.takesVertex v

def Edge.goesWith (input : List Value) (e : Edge) : Bool :=
  input.any fun x => x.takesEdge e

/-- Two identifiers are the same if they lead to the same slot. -/
theorem Indexed.id_eq_iff {α : Type} {idOf : α → ElementId} {arena : Arena α}
    {index : OrderedMap ElementId Nat} (h : Indexed idOf arena index) {id other : ElementId}
    {slot place : Nat} (hid : index.get? id = some slot) (hother : index.get? other = some place) :
    id = other ↔ slot = place := by
  constructor
  · intro heq
    rw [← heq, hid] at hother
    exact Option.some.inj hother
  · intro heq
    rw [← heq] at hother
    exact h.id_unique hid hother

private theorem filter_of_all {α : Type} {p : α → Bool} {o : Option α}
    (h : ∀ a, o = some a → p a = true) : o.filter p = o := by
  cases o with
  | none => rfl
  | some a => exact Option.filter_some_pos (h a rfl)

namespace Graph

variable {g middle next : Graph}

/-- The graph after the element that a value refers to was removed, if it is there. -/
def removed (g : Graph) : Value → Graph
  | .vertex v => g.removeVertex v.id
  | .edge e => g.removeEdge e.id
  | _ => g

/-- A graph holds what another one does, but for the elements that go with some values. -/
structure Without (g : Graph) (input : List Value) (next : Graph) : Prop where
  wellFormed : next.WellFormed
  vertexIn? : ∀ slot, next.vertexIn? slot = (g.vertexIn? slot).filter fun v => !v.goesWith input
  edgeIn? : ∀ slot, next.edgeIn? slot = (g.edgeIn? slot).filter fun e => !e.goesWith input
  vertices : ∀ slot r, next.vertices.get? slot = some r → g.vertices.get? slot = some r
  edges : ∀ slot e, next.edges.get? slot = some e → g.edges.get? slot = some e

namespace Without

/-- Where nothing goes, the graph stays as it is. -/
theorem of_none (hw : g.WellFormed) {input : List Value}
    (hv : ∀ slot v, g.vertexIn? slot = some v → v.goesWith input = false)
    (he : ∀ slot e, g.edgeIn? slot = some e → e.goesWith input = false) :
    g.Without input g := by
  refine ⟨hw, fun slot => ?_, fun slot => ?_, fun _ _ h => h, fun _ _ h => h⟩
  · exact (filter_of_all fun v h => by rw [hv slot v h, Bool.not_false]).symm
  · exact (filter_of_all fun e h => by rw [he slot e h, Bool.not_false]).symm

/-- What goes with one value, and then with others, goes with all of them. -/
theorem cons {x : Value} {rest : List Value} (hfirst : g.Without [x] middle)
    (hrest : middle.Without rest next) : g.Without (x :: rest) next := by
  refine ⟨hrest.wellFormed, fun slot => ?_, fun slot => ?_, fun slot r hr => ?_,
    fun slot e he => ?_⟩
  · rw [hrest.vertexIn?, hfirst.vertexIn?, Option.filter_filter]
    simp [Vertex.goesWith, List.any_cons, Bool.not_or]
  · rw [hrest.edgeIn?, hfirst.edgeIn?, Option.filter_filter]
    simp [Edge.goesWith, List.any_cons, Bool.not_or]
  · exact hfirst.vertices slot r (hrest.vertices slot r hr)
  · exact hfirst.edges slot e (hrest.edges slot e he)

end Without

/-! ## A vertex -/

section Vertices

variable {id : ElementId} {slot : Nat}

theorem vertices_removeVertex (h : g.vertexIndex.get? id = some slot) :
    (g.removeVertex id).vertices = g.vertices.erase slot := by
  simp [removeVertex, h]

theorem edges_removeVertex (h : g.vertexIndex.get? id = some slot) :
    (g.removeVertex id).edges = g.edges.eraseAll (g.incidentSlots slot) := by
  simp [removeVertex, h]

theorem WellFormed.vertexIn?_removeVertex (hw : g.WellFormed)
    (h : g.vertexIndex.get? id = some slot) (other : Nat) :
    (g.removeVertex id).vertexIn? other = (g.vertexIn? other).filter fun v => !(id == v.id) := by
  unfold Graph.vertexIn?
  rw [vertices_removeVertex h, Arena.get?_erase]
  by_cases hslot : slot = other
  · obtain ⟨r, hr, hid⟩ := hw.vertices_indexed.live_of_get? h
    rw [if_pos hslot, ← hslot, hr]
    simp [Option.filter_some, VertexRecord.reference, hid]
  · rw [if_neg hslot]
    refine (filter_of_all fun v hv => ?_).symm
    have hid := hw.vertices_indexed.id_eq_iff h (hw.get?_of_vertexIn? hv)
    simpa [hid] using hslot

/-- The edges that go are those with an end that goes. -/
theorem WellFormed.edgeIn?_removeVertex (hw : g.WellFormed)
    (h : g.vertexIndex.get? id = some slot) (other : Nat) :
    (g.removeVertex id).edgeIn? other =
      (g.edgeIn? other).filter fun e => !(id == e.source || id == e.target) := by
  have hget : (g.removeVertex id).edges.get? other =
      if other ∈ g.incidentSlots slot then none else g.edges.get? other := by
    rw [edges_removeVertex h, Arena.get?_eraseAll]
  cases he : g.edges.get? other with
  | none =>
      rw [he, ite_self] at hget
      rw [edgeIn?_of_vacant he, edgeIn?_of_vacant hget]
      rfl
  | some e =>
      obtain ⟨source, target, hsource, htarget, hin⟩ := hw.edgeIn?_ends he
      have hfrom := hw.vertices_indexed.id_eq_iff h (hw.get?_of_vertexIn? hsource)
      have hto := hw.vertices_indexed.id_eq_iff h (hw.get?_of_vertexIn? htarget)
      have hgoes : other ∈ g.incidentSlots slot ↔ id = source.id ∨ id = target.id := by
        rw [hfrom, hto, hw.mem_incidentSlots]
        constructor
        · intro hfound
          obtain ⟨f, hf, side, hanchor⟩ := hfound
          rw [he] at hf
          cases hf
          cases side with
          | outgoing => exact .inl hanchor.symm
          | incoming => exact .inr hanchor.symm
        · intro hend
          rcases hend with hend | hend
          · exact ⟨e, he, .outgoing, hend.symm⟩
          · exact ⟨e, he, .incoming, hend.symm⟩
      by_cases hend : id = source.id ∨ id = target.id
      · rw [if_pos (hgoes.mpr hend)] at hget
        rw [edgeIn?_of_vacant hget, hin]
        simpa [Option.filter_some] using or_iff_not_imp_left.mp hend
      · rw [if_neg fun hmem => hend (hgoes.mp hmem), he] at hget
        obtain ⟨hnear, hfar⟩ := not_or.mp hend
        -- both ends stay, and so does the reference
        have hsame : (g.removeVertex id).edgeIn? other =
            some ⟨e.id, e.label, source.id, target.id⟩ := by
          simp [Graph.edgeIn?, hget, edgeReference?, hw.vertexIn?_removeVertex h, hsource, htarget,
            Option.filter_some, hnear, hfar]
        rw [hsame, hin]
        simp [Option.filter_some, hnear, hfar]

theorem WellFormed.without_removeVertex (hw : g.WellFormed) (w : Vertex) :
    g.Without [.vertex w] (g.removeVertex w.id) := by
  cases h : g.vertexIndex.get? w.id with
  | none =>
      have habsent : ∀ slot v, g.vertexIn? slot = some v → w.id ≠ v.id := by
        intro slot v hv hid
        rw [hid, hw.get?_of_vertexIn? hv] at h
        cases h
      have hsame : g.removeVertex w.id = g := by simp [Graph.removeVertex, h]
      rw [hsame]
      refine .of_none hw (fun slot v hv => ?_) (fun slot edge hedge => ?_)
      · simpa [Vertex.goesWith, Value.takesVertex] using habsent slot v hv
      · obtain ⟨e, he, -⟩ := Option.bind_eq_some_iff.mp hedge
        obtain ⟨source, target, hsource, htarget, hin⟩ := hw.edgeIn?_ends he
        rw [hin] at hedge
        cases hedge
        simp [Edge.goesWith, Value.takesEdge, habsent _ _ hsource, habsent _ _ htarget]
  | some slot =>
      refine ⟨hw.removeVertex w.id, fun other => ?_, fun other => ?_, fun other r hr => ?_,
        fun other e he => ?_⟩
      · simpa [Vertex.goesWith, Value.takesVertex] using hw.vertexIn?_removeVertex h other
      · simpa [Edge.goesWith, Value.takesEdge] using hw.edgeIn?_removeVertex h other
      · rw [vertices_removeVertex h] at hr
        exact Arena.get?_of_erase hr
      · rw [edges_removeVertex h] at he
        exact Arena.get?_of_eraseAll he

end Vertices

/-! ## An edge -/

section Edges

variable {id : ElementId} {slot : Nat}

theorem vertices_removeEdge (g : Graph) (id : ElementId) :
    (g.removeEdge id).vertices = g.vertices := by
  unfold removeEdge
  split <;> rfl

theorem edges_removeEdge (h : g.edgeIndex.get? id = some slot) :
    (g.removeEdge id).edges = g.edges.erase slot := by
  simp [removeEdge, h]

theorem vertexIn?_removeEdge (g : Graph) (id : ElementId) :
    (g.removeEdge id).vertexIn? = g.vertexIn? := by
  funext slot
  rw [vertexIn?, vertices_removeEdge, vertexIn?]

theorem WellFormed.edgeIn?_removeEdge (hw : g.WellFormed) (h : g.edgeIndex.get? id = some slot)
    (other : Nat) :
    (g.removeEdge id).edgeIn? other = (g.edgeIn? other).filter fun e => !(id == e.id) := by
  have hreference : (g.removeEdge id).edgeReference? = g.edgeReference? := by
    funext e
    rw [edgeReference?, vertexIn?_removeEdge, edgeReference?]
  have hin : (g.removeEdge id).edgeIn? other = if slot = other then none else g.edgeIn? other := by
    unfold Graph.edgeIn?
    rw [edges_removeEdge h, Arena.get?_erase, hreference]
    split <;> rfl
  rw [hin]
  cases hedge : g.edgeIn? other with
  | none => exact ite_self none
  | some edge =>
      have hid := hw.edges_indexed.id_eq_iff h (hw.get?_of_edgeIn? hedge)
      by_cases hslot : slot = other
      · simp [Option.filter_some, hid, hslot]
      · simp [Option.filter_some, hid, hslot]

theorem WellFormed.without_removeEdge (hw : g.WellFormed) (f : Edge) :
    g.Without [.edge f] (g.removeEdge f.id) := by
  cases h : g.edgeIndex.get? f.id with
  | none =>
      have hsame : g.removeEdge f.id = g := by simp [Graph.removeEdge, h]
      rw [hsame]
      refine .of_none hw (fun slot v _ => by simp [Vertex.goesWith, Value.takesVertex])
        (fun slot edge hedge => ?_)
      have hne : f.id ≠ edge.id := by
        intro hid
        rw [hid, hw.get?_of_edgeIn? hedge] at h
        cases h
      simp [Edge.goesWith, Value.takesEdge, hne]
  | some slot =>
      refine ⟨hw.removeEdge f.id, fun other => ?_, fun other => ?_, fun other r hr => ?_,
        fun other e he => ?_⟩
      · rw [vertexIn?_removeEdge]
        exact (filter_of_all fun v _ => by simp [Vertex.goesWith, Value.takesVertex]).symm
      · simpa [Edge.goesWith, Value.takesEdge] using hw.edgeIn?_removeEdge h other
      · rwa [vertices_removeEdge] at hr
      · rw [edges_removeEdge h] at he
        exact Arena.get?_of_erase he

end Edges

/-! ## All elements -/

theorem WellFormed.without_removed (hw : g.WellFormed) (x : Value) :
    g.Without [x] (g.removed x) := by
  cases x
  case vertex w => exact hw.without_removeVertex w
  case edge f => exact hw.without_removeEdge f
  all_goals
    refine .of_none hw (fun slot v _ => ?_) (fun slot e _ => ?_)
    · simp [Vertex.goesWith, Value.takesVertex]
    · simp [Edge.goesWith, Value.takesEdge]

theorem WellFormed.without_removeAll (hw : g.WellFormed) (input : List Value) :
    g.Without input (input.foldl removed g) := by
  induction input generalizing g with
  | nil => exact .of_none hw (fun _ _ _ => rfl) (fun _ _ _ => rfl)
  | cons x rest ih =>
      have hfirst := hw.without_removed x
      exact hfirst.cons (ih hfirst.wellFormed)

namespace Without

variable {input : List Value}

theorem allVertices (h : g.Without input next) :
    next.allVertices = g.allVertices.filter fun v => !v.goesWith input := by
  have hfewer : ∀ slot, next.vertices.isLive slot = true → g.vertices.isLive slot = true := by
    intro slot hslot
    obtain ⟨r, hr⟩ := (Arena.isLive_eq_true_iff _ _).mp hslot
    exact (Arena.isLive_eq_true_iff _ _).mpr ⟨r, h.vertices slot r hr⟩
  unfold Graph.allVertices
  rw [Arena.filterMap_live_slots hfewer fun _ => vertexIn?_of_vacant, List.filter_filterMap]
  exact List.filterMap_congr fun slot _ => h.vertexIn? slot

theorem allEdges (h : g.Without input next) :
    next.allEdges = g.allEdges.filter fun e => !e.goesWith input := by
  have hfewer : ∀ slot, next.edges.isLive slot = true → g.edges.isLive slot = true := by
    intro slot hslot
    obtain ⟨e, he⟩ := (Arena.isLive_eq_true_iff _ _).mp hslot
    exact (Arena.isLive_eq_true_iff _ _).mpr ⟨e, h.edges slot e he⟩
  unfold Graph.allEdges
  rw [Arena.filterMap_live_slots hfewer fun _ => edgeIn?_of_vacant, List.filter_filterMap]
  exact List.filterMap_congr fun slot _ => h.edgeIn? slot

end Without

end Graph

end GraphGateway
