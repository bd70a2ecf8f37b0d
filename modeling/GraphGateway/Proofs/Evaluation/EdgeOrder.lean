import GraphGateway.Proofs.Evaluation.Reachable
import GraphGateway.Proofs.Graph.Chronicle

/-!
# The order of adjacent edges

Walking from a vertex meets its edges slot by slot. Which edges are met is decided
by the graph alone; that they come in the order in which they were added takes
slots that ascend with age, as they do until a new edge takes the slot of one that
was removed.
-/

namespace GraphGateway

/-- The far end of an edge that is met on one side of a vertex. -/
def Edge.farEnd (e : Edge) : Side → ElementId
  | .outgoing => e.target
  | .incoming => e.source

namespace Graph

variable {g : Graph}

/-- Whether an edge still exists, lies on one side of a vertex and carries an admitted label. -/
def attaches (g : Graph) (side : Side) (labels : List String) (v : Vertex) (id : ElementId) :
    Bool :=
  match g.vertexIndex.get? v.id, (g.edgeIndex.get? id).bind g.edges.get? with
  | some slot, some e => e.anchor side == slot && admits labels e.label
  | _, _ => false

/-- The first edge lies in an earlier slot than the second one. -/
def Precedes (g : Graph) (a b : ElementId) : Prop :=
  ∃ i j, g.edgeIndex.get? a = some i ∧ g.edgeIndex.get? b = some j ∧ i < j

theorem Precedes.asymm {a b : ElementId} (h : g.Precedes a b) : ¬ g.Precedes b a := by
  intro hback
  obtain ⟨i, j, hi, hj, hlt⟩ := h
  obtain ⟨k, l, hk, hl, hgt⟩ := hback
  rw [hj] at hk
  rw [hi] at hl
  cases hk
  cases hl
  exact Nat.lt_asymm hlt hgt

/-! ## What is met -/

/-- The edge in a slot refers to its record and to the vertices at its ends. -/
theorem WellFormed.edgeIn?_of_live (hw : g.WellFormed) {slot : Nat} {e : EdgeRecord}
    (he : g.edges.get? slot = some e) (side : Side) :
    ∃ edge w, g.edgeIn? slot = some edge ∧ edge.id = e.id ∧
      g.vertexIn? (e.opposite side) = some w ∧ w.id = edge.farEnd side := by
  obtain ⟨source, target, hsource, htarget, hin⟩ := hw.edgeIn?_ends he
  cases side with
  | outgoing => exact ⟨_, _, hin, rfl, htarget, rfl⟩
  | incoming => exact ⟨_, _, hin, rfl, hsource, rfl⟩

theorem WellFormed.incidence_ids (hw : g.WellFormed) (side : Side) (labels : List String)
    {v : Vertex} {slot : Nat} (hv : g.vertexIndex.get? v.id = some slot) :
    (g.incidence side labels v).map Edge.id = (g.edgesAt side labels slot).map fun p => p.2.id := by
  simp only [incidence, hv]
  rw [List.map_filterMap, ← List.filterMap_eq_map]
  refine List.filterMap_congr fun p hp => ?_
  have he := ((mem_edgesAt g side labels slot p.1 p.2).mp hp).1
  obtain ⟨edge, -, hin, hid, -⟩ := hw.edgeIn?_of_live he side
  simp [hin, hid]

/-- Walking to the neighbours follows the same edges in the same order. -/
theorem WellFormed.neighbourhood_ids (hw : g.WellFormed) (side : Side) (labels : List String)
    (v : Vertex) :
    (g.neighbourhood side labels v).map Vertex.id =
      (g.incidence side labels v).map fun e => e.farEnd side := by
  unfold neighbourhood incidence
  cases g.vertexIndex.get? v.id with
  | none => rfl
  | some slot =>
      simp only
      rw [List.map_filterMap, List.map_filterMap]
      refine List.filterMap_congr fun p hp => ?_
      have he := ((mem_edgesAt g side labels slot p.1 p.2).mp hp).1
      obtain ⟨edge, w, hin, -, hfar, hid⟩ := hw.edgeIn?_of_live he side
      simp [hin, hfar, hid]

theorem WellFormed.mem_incidence_ids (hw : g.WellFormed) (side : Side) (labels : List String)
    (v : Vertex) (id : ElementId) :
    id ∈ (g.incidence side labels v).map Edge.id ↔ g.attaches side labels v id = true := by
  unfold attaches
  cases hv : g.vertexIndex.get? v.id with
  | none => simp [incidence, hv]
  | some slot =>
      rw [hw.incidence_ids side labels hv, List.mem_map]
      constructor
      · intro hfound
        rcases hfound with ⟨⟨s, e⟩, hp, rfl⟩
        obtain ⟨he, hanchor, hlabel⟩ := (mem_edgesAt g side labels slot s e).mp hp
        simp [hw.edges_indexed.get?_of_live he, he, hanchor, hlabel]
      · intro hattached
        cases hs : g.edgeIndex.get? id with
        | none => simp [hs] at hattached
        | some s =>
            obtain ⟨e, he, hid⟩ := hw.edges_indexed.live_of_get? hs
            have hmatch : e.anchor side = slot ∧ admits labels e.label = true := by
              simpa [hs, he] using hattached
            exact ⟨(s, e), (mem_edgesAt g side labels slot s e).mpr ⟨he, hmatch⟩, hid⟩

/-! ## In which order -/

/-- Edges are met by slot. -/
theorem WellFormed.incidence_ascends (hw : g.WellFormed) (side : Side) (labels : List String)
    (v : Vertex) : ((g.incidence side labels v).map Edge.id).Pairwise g.Precedes := by
  cases hv : g.vertexIndex.get? v.id with
  | none => simp [incidence, hv]
  | some slot =>
      rw [hw.incidence_ids side labels hv, List.pairwise_map]
      have hslots : (g.edgesAt side labels slot).Pairwise fun p q => p.1 < q.1 :=
        (List.pairwise_map.mp g.edges.live_slots_sorted).filter _
      refine hslots.imp_of_mem fun {p q} hp hq hlt => ?_
      have hpe := ((mem_edgesAt g side labels slot p.1 p.2).mp hp).1
      have hqe := ((mem_edgesAt g side labels slot q.1 q.2).mp hq).1
      exact ⟨p.1, q.1, hw.edges_indexed.get?_of_live hpe, hw.edges_indexed.get?_of_live hqe, hlt⟩

namespace Chronicle

variable {added : List ElementId} {reused : Bool}

/-- What is met are the matching ones of all edges that were ever added, each once. -/
theorem incidence_perm (h : Chronicle g added reused) (side : Side) (labels : List String)
    (v : Vertex) :
    ((g.incidence side labels v).map Edge.id).Perm (added.filter (g.attaches side labels v)) := by
  have hmet : ((g.incidence side labels v).map Edge.id).Nodup := by
    refine (h.wellFormed.incidence_ascends side labels v).imp fun hlt heq => ?_
    subst heq
    exact hlt.asymm hlt
  refine (List.perm_ext_iff_of_nodup hmet (h.added_nodup.filter _)).mpr fun id => ?_
  rw [h.wellFormed.mem_incidence_ids, List.mem_filter]
  constructor
  · intro hattached
    refine ⟨?_, hattached⟩
    cases hs : g.edgeIndex.get? id with
    | none => simp [attaches, hs] at hattached
    | some slot => exact h.mem_added hs
  · intro hfound
    exact hfound.2

/-- The order in which edges are met is that of their additions exactly if their slots ascend. -/
theorem incidence_eq_iff (h : Chronicle g added reused) (side : Side) (labels : List String)
    (v : Vertex) :
    (g.incidence side labels v).map Edge.id = added.filter (g.attaches side labels v) ↔
      (added.filter (g.attaches side labels v)).Pairwise g.Precedes := by
  have hmet := h.wellFormed.incidence_ascends side labels v
  constructor
  · intro heq
    rwa [heq] at hmet
  · intro hascend
    exact (h.incidence_perm side labels v).eq_of_pairwise
      (fun a b _ _ hab hba => absurd hba hab.asymm) hmet hascend

/-- Where no slot was used twice, all slots ascend with age. -/
theorem attached_ascend (h : Chronicle g added false) (side : Side) (labels : List String)
    (v : Vertex) : (added.filter (g.attaches side labels v)).Pairwise g.Precedes := by
  refine ((h.slots_ascend rfl).filter _).imp_of_mem fun {a b} ha hb hlt => ?_
  have hlive : ∀ id ∈ added.filter (g.attaches side labels v),
      ∃ slot, g.edgeIndex.get? id = some slot := by
    intro id hid
    have hattached := (List.mem_filter.mp hid).2
    cases hs : g.edgeIndex.get? id with
    | none => simp [attaches, hs] at hattached
    | some slot => exact ⟨slot, rfl⟩
  obtain ⟨i, hi⟩ := hlive a ha
  obtain ⟨j, hj⟩ := hlive b hb
  exact ⟨i, j, hi, hj, hlt i j hi hj⟩

end Chronicle

end Graph

namespace Store

variable {s : Store}

/-! ## Reachable stores have chronicles -/

/-- The graph has a chronicle in which all edges carry identifiers that were drawn. -/
structure Chronicled (s : Store) : Prop where
  issue_injective : Function.Injective s.ids.issue
  chronicle : ∃ added reused, Graph.Chronicle s.graph added reused ∧
    ∀ id ∈ added, ∃ k, k < s.ids.position ∧ id = .text (s.ids.issue k)

namespace Chronicled

theorem start {issue : Nat → String} (h : Function.Injective issue) : (start issue).Chronicled :=
  ⟨h, [], false, .empty, by simp⟩

theorem draw (hs : s.Chronicled) : ({ s with ids := s.ids.next.2 } : Store).Chronicled := by
  obtain ⟨hinjective, added, reused, h, hdrawn⟩ := hs
  refine ⟨hinjective, added, reused, h, fun id hid => ?_⟩
  obtain ⟨k, hk, hissued⟩ := hdrawn id hid
  exact ⟨k, Nat.lt_succ_of_lt hk, hissued⟩

theorem change (hs : s.Chronicled) {graph : Graph} (hchange : Graph.Change s.graph graph) :
    ({ s with graph } : Store).Chronicled := by
  obtain ⟨hinjective, added, reused, h, hdrawn⟩ := hs
  exact ⟨hinjective, added, reused, h.change hchange, hdrawn⟩

theorem addEdge (hs : s.Chronicled) {label : String} {source target : ElementId} {e : Edge}
    {graph : Graph} (hadd : s.graph.insertEdge s.ids.next.1 label source target = .ok (e, graph)) :
    (⟨graph, s.ids.next.2⟩ : Store).Chronicled := by
  obtain ⟨hinjective, added, reused, h, hdrawn⟩ := hs
  have hnew : s.ids.next.1 ∉ added := by
    intro hmem
    obtain ⟨k, hk, hissued⟩ := hdrawn _ hmem
    have hposition := hinjective (ElementId.text.inj hissued)
    omega
  refine ⟨hinjective, _, _, h.addEdge hnew hadd, fun id hid => ?_⟩
  rcases List.mem_append.mp hid with hold | hlast
  · obtain ⟨k, hk, hissued⟩ := hdrawn id hold
    exact ⟨k, Nat.lt_succ_of_lt hk, hissued⟩
  · exact ⟨s.ids.position, Nat.lt_succ_self _, List.mem_singleton.mp hlast⟩

theorem wellFormed (hs : s.Chronicled) : s.graph.WellFormed := by
  obtain ⟨added, reused, h, -⟩ := hs.chronicle
  exact h.wellFormed

theorem invariant (access : Access) : Invariant access Chronicled where
  wellFormed := fun _ hs => hs.wellFormed
  draw := fun _ _ hs => hs.draw
  insertVertex := fun _ _ _ _ _ hs h => hs.draw.change (.insertVertex h)
  insertEdge := fun _ _ _ _ _ _ _ hs h => hs.addEdge h
  setVertexProperty := fun _ _ _ _ _ _ hs h => hs.change (.setVertexProperty h)
  setEdgeProperty := fun _ _ _ _ _ _ hs h => hs.change (.setEdgeProperty h)
  renameVertex := fun _ _ _ _ _ _ hs h => hs.change (.renameVertex h)
  removeVertex := fun _ _ id hs => hs.change (.removeVertex _ id)
  removeEdge := fun _ _ id hs => hs.change (.removeEdge _ id)

theorem preserved : Preserved Chronicled where
  invariant := Chronicled.invariant
  insertVertex := fun _ _ _ _ _ hs h => hs.change (.insertVertex h)

end Chronicled

/-- However a store came about, there is a chronicle of its edges. -/
theorem Reachable.chronicled (h : s.Reachable) : s.Chronicled :=
  Chronicled.preserved.reachable (fun _ => .start) h

/-! ## Walking -/

/-- The edges on one side of a vertex, and the vertices at their far ends, come in one order. It is
the order in which the edges were added exactly if their slots ascend with age, as they do where no
edge took the slot of another. -/
theorem adjacency_order {added : List ElementId} {reused : Bool}
    (h : Graph.Chronicle s.graph added reused) (access : Access) (side : Side)
    (labels : List String) (v : Vertex) :
    ∃ (edges : List Edge) (vertices : List Vertex),
      (Step.onValues access [.incident side labels] [.vertex v]).Yields s (edges.map .edge) ∧
      (Step.onValues access [.hop (.along side) labels] [.vertex v]).Yields s
        (vertices.map .vertex) ∧
      vertices.map Vertex.id = (edges.map fun e => e.farEnd side) ∧
      (edges.map Edge.id).Perm (added.filter (s.graph.attaches side labels v)) ∧
      (edges.map Edge.id = added.filter (s.graph.attaches side labels v) ↔
        (added.filter (s.graph.attaches side labels v)).Pairwise s.graph.Precedes) ∧
      (reused = false → edges.map Edge.id = added.filter (s.graph.attaches side labels v)) := by
  have hw := h.wellFormed
  refine ⟨s.graph.incidence side labels v, s.graph.neighbourhood side labels v, ?_, ?_,
    hw.neighbourhood_ids side labels v, h.incidence_perm side labels v,
    h.incidence_eq_iff side labels v, ?_⟩
  · have hlook : (Eval.look fun g => g.incidentEdges side labels (.vertex v)).Yields s
        ((s.graph.incidence side labels v).map .edge) :=
      .look (hw.incidentEdges side labels v)
    rw [Step.onValues_singleton rfl]
    exact Eval.Leads.collect_singleton hlook.leads
  · have hlook : (Eval.look fun g => g.hop (.along side) labels (.vertex v)).Yields s
        ((s.graph.neighbourhood side labels v).map .vertex) :=
      .look (hw.hop (.along side) labels v)
    rw [Step.onValues_singleton rfl]
    exact Eval.Leads.collect_singleton hlook.leads
  · intro hfresh
    subst hfresh
    exact (h.incidence_eq_iff side labels v).mpr (h.attached_ascend side labels v)

/-- A store in which one user follows two others; there is a third one. -/
def following : Store :=
  (start unary).performAll
    [.addVertex (.text "a") "User" [], .addVertex (.text "b") "User" [],
      .addVertex (.text "c") "User" [], .addVertex (.text "d") "User" [],
      .addEdge "FOLLOWS" (.text "a") (.text "b"), .addEdge "FOLLOWS" (.text "a") (.text "c")]

theorem following_chronicle :
    Graph.Chronicle following.graph [.text "", .text "x"] false := by
  have ha := Graph.Chronicle.empty.addVertex
    (show Graph.empty.addVertex (.text "a") "User" [] = .ok (_, _) from rfl)
  have hb := ha.addVertex (show Graph.addVertex _ (.text "b") "User" [] = .ok (_, _) from rfl)
  have hc := hb.addVertex (show Graph.addVertex _ (.text "c") "User" [] = .ok (_, _) from rfl)
  have hd := hc.addVertex (show Graph.addVertex _ (.text "d") "User" [] = .ok (_, _) from rfl)
  have hab := hd.addEdge (by decide : ElementId.text "" ∉ [])
    (show Graph.insertEdge _ (.text "") "FOLLOWS" (.text "a") (.text "b") = .ok (_, _) from rfl)
  exact hab.addEdge (by decide : ElementId.text "x" ∉ [.text ""])
    (show Graph.insertEdge _ (.text "x") "FOLLOWS" (.text "a") (.text "c") = .ok (_, _) from rfl)

/-- The same store after the first edge was removed and the third user was followed. -/
def refollowing : Store :=
  following.performAll
    [.submit (.root [.vertices [.string "b"], .incident .incoming ["FOLLOWS"], .drop]),
      .addEdge "FOLLOWS" (.text "a") (.text "d")]

theorem refollowing_chronicle :
    Graph.Chronicle refollowing.graph [.text "", .text "x", .text "xx"] true := by
  have hremoved := following_chronicle.change (.removeEdge _ (.text ""))
  exact hremoved.addEdge (by decide : ElementId.text "xx" ∉ [.text "", .text "x"])
    (show Graph.insertEdge _ (.text "xx") "FOLLOWS" (.text "a") (.text "d") = .ok (_, _) from rfl)

theorem adjacency_order_following :
    ∃ edges : List Edge,
      (Step.onValues .read [.incident .outgoing ["FOLLOWS"]] [.vertex ⟨.text "a", "User"⟩]).Yields
        following (edges.map .edge) ∧ edges.map Edge.id = [.text "", .text "x"] := by
  obtain ⟨edges, -, hyields, -, -, -, -, horder⟩ :=
    adjacency_order following_chronicle .read .outgoing ["FOLLOWS"] ⟨.text "a", "User"⟩
  exact ⟨edges, hyields, horder rfl⟩

/-- The youngest edge is met first: it took the slot of the edge that was removed. -/
theorem adjacency_out_of_order :
    Graph.Chronicle refollowing.graph [.text "", .text "x", .text "xx"] true ∧
      [ElementId.text "", .text "x", .text "xx"].filter
          (refollowing.graph.attaches .outgoing ["FOLLOWS"] ⟨.text "a", "User"⟩) =
        [.text "x", .text "xx"] ∧
      (Step.onValues .read [.incident .outgoing ["FOLLOWS"]] [.vertex ⟨.text "a", "User"⟩]).Yields
        refollowing
        [.edge ⟨.text "xx", "FOLLOWS", .text "a", .text "d"⟩,
          .edge ⟨.text "x", "FOLLOWS", .text "a", .text "c"⟩] ∧
      (Step.onValues .read [.hop (.along .outgoing) ["FOLLOWS"]]
          [.vertex ⟨.text "a", "User"⟩]).Yields
        refollowing [.vertex ⟨.text "d", "User"⟩, .vertex ⟨.text "c", "User"⟩] := by
  refine ⟨refollowing_chronicle, ?_, ?_, ?_⟩
  · rfl
  · rfl
  · rfl

end Store

end GraphGateway
