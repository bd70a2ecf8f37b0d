import GraphGateway.Filter.Schema
import GraphGateway.Proofs.Graph.Walk

/-!
# What filters mean

The meaning of a filter input, by recursion on the input and without any
traversal: a vertex satisfies it when it carries the label of the filter and
meets every field. A field that holds `null` asks for nothing. A scalar field
asks for a stored value that every operator accepts, a nested field asks the same
vertex to satisfy another filter, and a relationship asks some adjacent vertex to.
-/

namespace GraphGateway

namespace Graph

def recordOf? (g : Graph) (id : ElementId) : Option VertexRecord :=
  (g.vertexIndex.get? id).bind g.vertices.get?

def Joins (g : Graph) (label : String) (source target : ElementId) : Prop :=
  ∃ slot e s t, g.edges.get? slot = some e ∧ e.label = label ∧
    g.vertices.get? e.source = some s ∧ s.id = source ∧
    g.vertices.get? e.target = some t ∧ t.id = target

/-- Two vertices are joined in a direction, seen from the first. -/
def Adjacent (g : Graph) (direction : Direction) (label : String) (v w : ElementId) : Prop :=
  match direction with
  | .along .outgoing => g.Joins label v w
  | .along .incoming => g.Joins label w v
  | .both => g.Joins label v w ∨ g.Joins label w v

end Graph

namespace Filter

/-- The stored value that a scalar filter looks at: a property, or a token of the vertex itself. -/
def ScalarFilter.subject? (f : ScalarFilter) (r : VertexRecord) : Option Value :=
  match f.key with
  | .name property => r.properties.get? property
  | .token .id => some r.id.toValue
  | .token .label => some (.string r.label)
  | .token _ => none

/-- Whether a vertex passes one operator: it has the stored value, and the predicate accepts it. -/
def ScalarFilter.Passes (f : ScalarFilter) (g : Graph) (id : ElementId) : String × Json → Prop
  | (_, .null) => True
  | (name, wanted) =>
      ∃ op p r v, f.operator name = .ok op ∧ f.predicate name op wanted = .ok p ∧
        g.recordOf? id = some r ∧ f.subject? r = some v ∧ p.accepts v = true

namespace Schema

mutual

/-- Whether a vertex has the label of a filter and meets every field of an input. -/
def Satisfies (s : Schema) (g : Graph) (f : VertexFilter) : List (String × Json) → ElementId → Prop
  | [], id => ∃ r, g.recordOf? id = some r ∧ r.label = f.label
  | (field, value) :: rest, id =>
      (∃ bound, f.find? field = some bound ∧ s.Meets g bound value id) ∧ s.Satisfies g f rest id

/-- Whether a vertex meets the value that an input gives to a bound field. -/
def Meets (s : Schema) (g : Graph) (bound : FieldFilter) : Json → ElementId → Prop
  | .null, _ => True
  | .object ⟨input⟩, id =>
      match bound with
      | .scalar f => ∀ operator ∈ input, f.Passes g id operator
      | .vertex target => ∃ f, s.filters.get? target = some f ∧ s.Satisfies g f input id
      | .relationship direction label target =>
          ∃ f, s.filters.get? target = some f ∧
            ∃ other, g.Adjacent direction label id other ∧ s.Satisfies g f input other
  | _, _ => False

end

def Accepts (s : Schema) (g : Graph) (name : String) (input : Fields) (id : ElementId) : Prop :=
  ∃ f, s.filters.get? name = some f ∧ s.Satisfies g f input.entries id

/-- A vertex satisfies an input if it has the label and meets the fields one by one. -/
theorem satisfies_iff (s : Schema) (g : Graph) (f : VertexFilter) (input : List (String × Json))
    (id : ElementId) :
    s.Satisfies g f input id ↔
      (∃ r, g.recordOf? id = some r ∧ r.label = f.label) ∧
        ∀ entry ∈ input, ∃ bound, f.find? entry.1 = some bound ∧ s.Meets g bound entry.2 id := by
  induction input with
  | nil => simp [Satisfies]
  | cons head rest ih =>
      obtain ⟨field, value⟩ := head
      rw [Satisfies, ih, List.forall_mem_cons]
      exact ⟨fun ⟨hhead, hlabel, hrest⟩ => ⟨hlabel, hhead, hrest⟩,
        fun ⟨hlabel, hhead, hrest⟩ => ⟨hhead, hlabel, hrest⟩⟩

end Schema

end Filter

namespace Graph

variable {g : Graph}

/-! ## What steps look at -/

theorem element?_vertex (g : Graph) (v : Vertex) :
    g.element? (.vertex v) = (g.recordOf? v.id).map fun r => ⟨r.id, r.label, r.properties⟩ := by
  simp only [element?, liveVertex?, recordOf?]
  cases g.vertexIndex.get? v.id <;> rfl

theorem hasLabel_vertex (g : Graph) (label : String) (v : Vertex) :
    g.hasLabel [label] (.vertex v) = true ↔ ∃ r, g.recordOf? v.id = some r ∧ r.label = label := by
  unfold hasLabel
  rw [element?_vertex]
  cases g.recordOf? v.id with
  | none => simp
  | some r => simp

theorem has_vertex (g : Graph) (f : Filter.ScalarFilter) (p : Predicate) (v : Vertex) :
    g.has f.key p (.vertex v) = true ↔
      ∃ r value, g.recordOf? v.id = some r ∧ f.subject? r = some value ∧
        p.accepts value = true := by
  unfold has Filter.ScalarFilter.subject?
  rw [element?_vertex]
  cases g.recordOf? v.id with
  | none => simp
  | some r =>
      cases f.key with
      | name k => simp [Option.any_eq_true]
      | token t => cases t <;> simp

/-! ## Neighbours -/

theorem mem_neighbourhood (hw : g.WellFormed) (side : Side) (label : String) (v w : Vertex) :
    w ∈ g.neighbourhood side [label] v ↔
      ∃ slot e near far, g.edges.get? slot = some e ∧ e.label = label ∧
        g.vertices.get? (e.anchor side) = some near ∧ near.id = v.id ∧
        g.vertices.get? (e.opposite side) = some far ∧ far.reference = w := by
  unfold neighbourhood
  cases hv : g.vertexIndex.get? v.id with
  | none =>
      refine ⟨fun h => (List.not_mem_nil h).elim, ?_⟩
      intro hfound
      rcases hfound with ⟨slot, e, near, far, -, -, hnear, hid, -⟩
      rw [← hid, hw.vertices_indexed.get?_of_live hnear] at hv
      cases hv
  | some slot =>
      obtain ⟨r, hr, hrid⟩ := hw.vertices_indexed.live_of_get? hv
      rw [List.mem_filterMap]
      constructor
      · intro hfound
        rcases hfound with ⟨⟨s, e⟩, hm, hw'⟩
        obtain ⟨he, hanchor, hlabel⟩ := (mem_edgesAt g side [label] slot s e).mp hm
        obtain ⟨far, hfar, rfl⟩ := Option.map_eq_some_iff.mp hw'
        exact ⟨s, e, r, far, he, by simpa [admits] using hlabel, hanchor ▸ hr, hrid, hfar, rfl⟩
      · intro hfound
        rcases hfound with ⟨s, e, near, far, he, hlabel, hnear, hid, hfar, rfl⟩
        have hanchor : e.anchor side = slot :=
          hw.vertices_indexed.slot_unique hnear hr (hid.trans hrid.symm)
        refine ⟨(s, e), (mem_edgesAt g side [label] slot s e).mpr ⟨he, hanchor, ?_⟩, ?_⟩
        · simp [admits, hlabel]
        · exact vertexIn?_of_live hfar

/-- Something holds of a neighbour on one side if it holds at the far end of an edge. -/
theorem exists_neighbourhood (hw : g.WellFormed) (side : Side) (label : String) (v : Vertex)
    (P : ElementId → Prop) :
    (∃ w ∈ g.neighbourhood side [label] v, P w.id) ↔
      ∃ other, g.Adjacent (.along side) label v.id other ∧ P other := by
  constructor
  · intro hfound
    rcases hfound with ⟨w, hm, hp⟩
    obtain ⟨slot, e, near, far, he, hlabel, hnear, hid, hfar, rfl⟩ :=
      (mem_neighbourhood hw side label v w).mp hm
    refine ⟨far.id, ?_, hp⟩
    cases side with
    | outgoing => exact ⟨slot, e, near, far, he, hlabel, hnear, hid, hfar, rfl⟩
    | incoming => exact ⟨slot, e, far, near, he, hlabel, hfar, rfl, hnear, hid⟩
  · intro hfound
    rcases hfound with ⟨other, hadj, hp⟩
    cases side with
    | outgoing =>
        obtain ⟨slot, e, near, far, he, hlabel, hnear, hid, hfar, rfl⟩ := hadj
        exact ⟨far.reference, (mem_neighbourhood hw .outgoing label v _).mpr
          ⟨slot, e, near, far, he, hlabel, hnear, hid, hfar, rfl⟩, hp⟩
    | incoming =>
        obtain ⟨slot, e, far, near, he, hlabel, hfar, rfl, hnear, hid⟩ := hadj
        exact ⟨far.reference, (mem_neighbourhood hw .incoming label v _).mpr
          ⟨slot, e, near, far, he, hlabel, hnear, hid, hfar, rfl⟩, hp⟩

theorem exists_around (hw : g.WellFormed) (direction : Direction) (label : String) (v : Vertex)
    (P : ElementId → Prop) :
    (∃ w ∈ g.around direction [label] v, P w.id) ↔
      ∃ other, g.Adjacent direction label v.id other ∧ P other := by
  cases direction with
  | along side => exact exists_neighbourhood hw side label v P
  | both =>
      have hout := exists_neighbourhood hw .outgoing label v P
      have hin := exists_neighbourhood hw .incoming label v P
      simp only [around, List.mem_append, or_and_right, exists_or, hout, hin, Adjacent]

end Graph

end GraphGateway
