import GraphGateway.Proofs.Evaluation.Reachable

/-!
# Hops

A hop goes from a vertex to its neighbours at once. The same can be done in two
steps, over the edges and on to their ends: both ways meet the same vertices in
the same order, also from vertices that no longer exist. Going out and going in
are each other's converse, with every edge counted once.
-/

namespace GraphGateway

def Side.opposite : Side → Side
  | .outgoing => .incoming
  | .incoming => .outgoing

namespace EdgeRecord

theorem anchor_opposite (e : EdgeRecord) (side : Side) :
    e.anchor side.opposite = e.opposite side := by
  cases side <;> rfl

theorem opposite_opposite (e : EdgeRecord) (side : Side) :
    e.opposite side.opposite = e.anchor side := by
  cases side <;> rfl

end EdgeRecord

namespace Graph

variable {g : Graph}

/-! ## Over edges -/

/-- The vertex at one end of an edge, as long as the edge exists. -/
def endOf? (g : Graph) (side : Side) (edge : Edge) : Option Vertex :=
  ((g.edgeIndex.get? edge.id).bind g.edges.get?).bind fun e => g.vertexIn? (e.anchor side)

theorem WellFormed.endpoint_eq_ok (hw : g.WellFormed) (side : Side) (edge : Edge) :
    g.endpoint side (.edge edge) = .ok ((g.endOf? side edge).toList.map .vertex) := by
  simp only [Graph.endpoint, endOf?]
  cases hb : (g.edgeIndex.get? edge.id).bind g.edges.get? with
  | none => rfl
  | some e =>
      obtain ⟨slot, -, he⟩ := Option.bind_eq_some_iff.mp hb
      obtain ⟨r, hr⟩ := hw.anchor_live slot e he side
      have hin : g.vertexIn? (e.anchor side) = some r.reference := vertexIn?_of_live hr
      have hat : g.vertexAt (e.anchor side) = .ok r.reference := vertexAt_of_live hr
      simp [hin, hat, Except.map]

/-- The neighbours of a vertex are the far ends of its edges. -/
theorem WellFormed.neighbourhood_eq_ends (hw : g.WellFormed) (side : Side) (labels : List String)
    (v : Vertex) :
    g.neighbourhood side labels v =
      (g.incidence side labels v).filterMap (g.endOf? side.opposite) := by
  unfold neighbourhood incidence
  cases g.vertexIndex.get? v.id with
  | none => rfl
  | some slot =>
      simp only
      rw [List.filterMap_filterMap]
      refine List.filterMap_congr fun p hp => ?_
      have he := ((mem_edgesAt g side labels slot p.1 p.2).mp hp).1
      obtain ⟨edge, hin, -, hid, -⟩ := hw.edgeAt_of_live he
      have hslot : g.edgeIndex.get? edge.id = some p.1 := by
        rw [hid]
        exact hw.edges_indexed.get?_of_live he
      simp [hin, endOf?, hslot, he, EdgeRecord.anchor_opposite]

/-! ## There and back -/

theorem WellFormed.vertexIn?_unique (hw : g.WellFormed) {slot other : Nat} {v : Vertex}
    (hslot : g.vertexIn? slot = some v) (hother : g.vertexIn? other = some v) : slot = other := by
  have hindexed := hw.get?_of_vertexIn? hslot
  rw [hw.get?_of_vertexIn? hother] at hindexed
  exact (Option.some.inj hindexed).symm

/-- A neighbour is met once for every edge between the two vertices. -/
theorem WellFormed.count_neighbourhood (hw : g.WellFormed) {near far : Nat} {u w : Vertex}
    (hu : g.vertexIn? near = some u) (hfar : g.vertexIn? far = some w) (side : Side)
    (labels : List String) :
    (g.neighbourhood side labels u).count w =
      g.edges.live.countP fun p =>
        p.2.anchor side == near && p.2.opposite side == far && admits labels p.2.label := by
  have hstart := hw.get?_of_vertexIn? hu
  have hend : ∀ slot, g.vertexIn? slot = some w ↔ slot = far := by
    intro slot
    constructor
    · intro h
      exact hw.vertexIn?_unique h hfar
    · intro h
      rw [h, hfar]
  simp only [neighbourhood, hstart]
  rw [List.count_filterMap, edgesAt, List.countP_filter]
  refine List.countP_congr fun p _ => ?_
  simp only [Bool.and_eq_true, beq_iff_eq, hend]
  exact ⟨fun h => ⟨⟨h.2.1, h.1⟩, h.2.2⟩, fun h => ⟨h.1.2, h.1.1, h.2⟩⟩

/-- Seen from either end, as many edges lead from one vertex to another. -/
theorem WellFormed.count_opposite (hw : g.WellFormed) {near far : Nat} {u w : Vertex}
    (hu : g.vertexIn? near = some u) (hfar : g.vertexIn? far = some w) (side : Side)
    (labels : List String) :
    (g.neighbourhood side labels u).count w =
      (g.neighbourhood side.opposite labels w).count u := by
  rw [hw.count_neighbourhood hu hfar, hw.count_neighbourhood hfar hu]
  refine List.countP_congr fun p _ => ?_
  rw [EdgeRecord.anchor_opposite, EdgeRecord.opposite_opposite]
  simp only [Bool.and_eq_true, and_assoc, and_left_comm]

end Graph

namespace Step

variable {s : Store}

/-! ## Steps -/

theorem incident_yields (hw : s.graph.WellFormed) (access : Access) (side : Side)
    (labels : List String) (vs : List Vertex) :
    (onValues access [.incident side labels] (vs.map .vertex)).Yields s
      ((vs.flatMap (s.graph.incidence side labels)).map .edge) := by
  rw [onValues_singleton rfl, List.map_flatMap]
  exact Eval.Yields.collect_map vs fun v _ => .look (hw.incidentEdges side labels v)

theorem endpoint_yields (hw : s.graph.WellFormed) (access : Access) (side : Side)
    (edges : List Edge) :
    (onValues access [.endpoint side] (edges.map .edge)).Yields s
      ((edges.filterMap (s.graph.endOf? side)).map .vertex) := by
  rw [onValues_singleton rfl, List.filterMap_eq_flatMap_toList, List.map_flatMap]
  exact Eval.Yields.collect_map edges fun edge _ => .look (hw.endpoint_eq_ok side edge)

end Step

namespace Store

variable {s : Store}

/-- The vertices that steps come to from given ones, without touching the store. -/
def Finds (s : Store) (access : Access) (steps : List Step) (vs found : List Vertex) : Prop :=
  (Step.onValues access steps (vs.map .vertex)).Yields s (found.map .vertex)

theorem finds_hop (hw : s.graph.WellFormed) (access : Access) (direction : Direction)
    (labels : List String) (vs : List Vertex) :
    s.Finds access [.hop direction labels] vs
      (vs.flatMap (s.graph.around direction labels)) := by
  unfold Finds
  rw [Step.onValues_singleton rfl, List.map_flatMap]
  exact Eval.Yields.collect_map vs fun v _ => .look (hw.hop direction labels v)

theorem finds_hop_singleton (hw : s.graph.WellFormed) (access : Access) (direction : Direction)
    (labels : List String) (v : Vertex) :
    s.Finds access [.hop direction labels] [v] (s.graph.around direction labels v) := by
  have hhop := finds_hop hw access direction labels [v]
  rwa [List.flatMap_singleton] at hhop

theorem finds_ends (hw : s.graph.WellFormed) (access : Access) (side : Side)
    (labels : List String) (vs : List Vertex) :
    s.Finds access [.incident side labels, .endpoint side.opposite] vs
      (vs.flatMap (s.graph.neighbourhood side labels)) := by
  have hedges := Step.incident_yields hw access side labels vs
  have hends := Step.endpoint_yields hw access side.opposite
    (vs.flatMap (s.graph.incidence side labels))
  have hfar : s.graph.neighbourhood side labels = fun v =>
      (s.graph.incidence side labels v).filterMap (s.graph.endOf? side.opposite) :=
    funext (hw.neighbourhood_eq_ends side labels)
  rw [List.filterMap_flatMap, ← hfar] at hends
  have hsteps : [Step.incident side labels, .endpoint side.opposite] =
      [.incident side labels] ++ [.endpoint side.opposite] := rfl
  unfold Finds
  rw [hsteps, Step.onValues_append rfl]
  exact hedges.bind hends

/-- A hop finds what the way over the edges finds, in the same order and as often, from any
vertices. A hop in both directions goes out first. Of two vertices that exist, going out from the
first finds the second as often as going in from the second finds the first. -/
theorem hops_converse (h : s.Reachable) (access : Access) (labels : List String) :
    (∀ side vs, ∃ found,
      s.Finds access [.hop (.along side) labels] vs found ∧
        s.Finds access [.incident side labels, .endpoint side.opposite] vs found) ∧
    (∀ v, ∃ out into,
      s.Finds access [.hop (.along .outgoing) labels] [v] out ∧
        s.Finds access [.hop (.along .incoming) labels] [v] into ∧
        s.Finds access [.hop .both labels] [v] (out ++ into)) ∧
    ∀ near far u w, s.graph.vertexIn? near = some u → s.graph.vertexIn? far = some w →
      ∃ out into,
        s.Finds access [.hop (.along .outgoing) labels] [u] out ∧
          s.Finds access [.hop (.along .incoming) labels] [w] into ∧
          out.count w = into.count u := by
  have hw := h.sound.graph_wellFormed
  have hone := fun direction v => finds_hop_singleton hw access direction labels v
  refine ⟨fun side vs => ?_, fun v => ?_, fun near far u w hu hfar => ?_⟩
  · exact ⟨_, finds_hop hw access (.along side) labels vs, finds_ends hw access side labels vs⟩
  · exact ⟨_, _, hone (.along .outgoing) v, hone (.along .incoming) v, hone .both v⟩
  · exact ⟨_, _, hone (.along .outgoing) u, hone (.along .incoming) w,
      hw.count_opposite hu hfar .outgoing labels⟩

/-- A store with two edges from one user to another, and one from the first user back to itself. -/
def knotted : Store :=
  (start unary).performAll
    [.addVertex (.text "a") "User" [], .addVertex (.text "b") "User" [],
      .addEdge "FOLLOWS" (.text "a") (.text "b"), .addEdge "KNOWS" (.text "a") (.text "a"),
      .addEdge "FOLLOWS" (.text "a") (.text "b")]

theorem knotted_reachable : knotted.Reachable :=
  ⟨unary, _, unary_injective, rfl⟩

theorem hops_converse_knotted :
    ∃ out into,
      knotted.Finds .read [.hop (.along .outgoing) []] [⟨.text "a", "User"⟩] out ∧
        knotted.Finds .read [.hop (.along .incoming) []] [⟨.text "b", "User"⟩] into ∧
        out.count ⟨.text "b", "User"⟩ = into.count ⟨.text "a", "User"⟩ := by
  exact (hops_converse knotted_reachable .read []).2.2 0 1 _ _ rfl rfl

end Store

end GraphGateway
