import GraphGateway.Social.Sample
import GraphGateway.Proofs.Evaluation.Reachable
import GraphGateway.Proofs.Graph.Growth

/-!
# Stores of the social graph

What holds of the store of the example at any time: every vertex goes by a text,
which stems from the sample or was issued before. Since the supply issues nothing
twice and nothing of the sample, what it issues next belongs to no vertex yet,
and a text names one vertex at most. The sample itself is such a store.
-/

namespace GraphGateway

namespace Social

def sampleIds : List String :=
  sampleUsers.map SampleUser.id ++ samplePosts.map SamplePost.id

/-- A supply that issues no identifier twice, and none that the sample uses. -/
structure FreshSupply (issue : Nat → String) : Prop where
  injective : Function.Injective issue
  not_sample : ∀ k, issue k ∉ sampleIds

theorem freshSupply_unary : FreshSupply Store.unary where
  injective := Store.unary_injective
  not_sample k hk := by
    have hall : (Store.unary k).toList.all (· == 'x') = true := by simp [Store.unary]
    have hnone : ∀ s ∈ sampleIds, s.toList.all (· == 'x') = false := by decide
    rw [hnone _ hk] at hall
    cases hall

/-- A text that a vertex may go by: one of the sample, or one that was issued before. -/
def Known (s : Store) (text : String) : Prop :=
  text ∈ sampleIds ∨ ∃ k, k < s.ids.position ∧ text = s.ids.issue k

/-- What holds of the store at any time. -/
structure Intact (s : Store) : Prop where
  sound : s.Sound
  supply : FreshSupply s.ids.issue
  known : ∀ id, s.graph.vertexIndex.contains id = true → ∃ text, id = .text text ∧ Known s text

namespace Intact

variable {s : Store}

theorem wellFormed (h : Intact s) : s.graph.WellFormed :=
  h.sound.graph_wellFormed

/-- What is still to be issued belongs to no vertex. -/
theorem unused (h : Intact s) {k : Nat} (hk : s.ids.position ≤ k) :
    s.graph.vertexIndex.contains (.text (s.ids.issue k)) = false := by
  cases hc : s.graph.vertexIndex.contains (.text (s.ids.issue k)) with
  | false => rfl
  | true =>
      obtain ⟨text, htext, hknown⟩ := h.known _ hc
      obtain rfl := ElementId.text.inj htext
      rcases hknown with hsample | ⟨j, hj, hissued⟩
      · exact absurd hsample (h.supply.not_sample k)
      · have hsame := h.supply.injective hissued
        omega

/-- Later stores of which every new vertex goes by an issued text. -/
theorem step (h : Intact s) {next : Store} (hsound : next.Sound)
    (hissue : next.ids.issue = s.ids.issue) (hposition : s.ids.position ≤ next.ids.position)
    (hgrows : ∀ id, next.graph.vertexIndex.contains id = true →
      s.graph.vertexIndex.contains id = true ∨ ∃ text, id = .text text ∧ Known next text) :
    Intact next where
  sound := hsound
  supply := hissue ▸ h.supply
  known id hc := by
    rcases hgrows id hc with hold | hnew
    · obtain ⟨text, rfl, hknown⟩ := h.known id hold
      refine ⟨text, rfl, ?_⟩
      rcases hknown with hsample | ⟨k, hk, hissued⟩
      · exact .inl hsample
      · exact .inr ⟨k, Nat.lt_of_lt_of_le hk hposition, by rw [hissue, hissued]⟩
    · exact hnew

/-- Taking identifiers from the supply does no harm. -/
theorem draw (h : Intact s) : Intact { s with ids := s.ids.next.2 } :=
  h.step h.sound.draw rfl (Nat.le_succ _) fun _ hc => .inl hc

/-! ## Looking up vertices -/

theorem findSlot?_string (h : Intact s) (text : String) :
    Graph.findSlot? s.graph.vertexIndex (.string text) = s.graph.vertexIndex.get? (.text text) := by
  unfold Graph.findSlot?
  have hid : Value.asId? (.string text) = some (.text text) := rfl
  rw [hid, Option.bind_some]
  cases hget : s.graph.vertexIndex.get? (.text text) with
  | some slot => rfl
  | none =>
      -- a vertex that matches would go by the same text
      have hnone : (s.graph.vertexIndex.entries.find? fun entry =>
          entry.1.matchesValue (.string text)) = none := by
        refine List.find?_eq_none.mpr fun entry hm hmatch => ?_
        have hentry := (h.wellFormed.vertices_indexed.index_distinct.get?_eq_some_iff entry.1
          entry.2).mpr hm
        obtain ⟨other, hother, -⟩ := h.known entry.1 (by simp [OrderedMap.contains, hentry])
        rw [hother] at hmatch hentry
        simp only [ElementId.matchesValue, hid, ElementId.display, ElementId.text.injEq,
          Bool.or_eq_true, decide_eq_true_eq] at hmatch
        have hsame : other = text := hmatch.elim id of_decide_eq_true
        rw [hsame, hget] at hentry
        cases hentry
      simp [hnone]

/-- A text names the vertex that goes by it, if there is one. -/
theorem selectVertices_string (h : Intact s) (text : String) :
    s.graph.selectVertices [.string text] =
      .ok ((s.graph.recordOf? (.text text)).toList.map fun r => .vertex r.reference) := by
  rw [h.wellFormed.selectVertices, Except.ok.injEq, Graph.selectSlots]
  simp only [List.isEmpty_cons, Bool.false_eq_true, if_false, List.filterMap_cons,
    List.filterMap_nil, h.findSlot?_string, Graph.recordOf?]
  cases hget : s.graph.vertexIndex.get? (.text text) with
  | none => rfl
  | some slot =>
      obtain ⟨r, hr, -⟩ := h.wellFormed.vertices_indexed.live_of_get? hget
      simp [hr, Graph.vertexIn?]

end Intact

/-! ## The sample -/

theorem setVertexProperties_keeps {properties : List (String × Value)} {g next : Graph}
    {id : ElementId} (h : g.setVertexProperties id properties = .ok next) :
    next.vertexIndex = g.vertexIndex ∧ next.edges = g.edges := by
  induction properties generalizing g with
  | nil => cases h; exact ⟨rfl, rfl⟩
  | cons head rest ih =>
      obtain ⟨middle, hset, hrest⟩ := Except.bind_eq_ok.mp h
      obtain ⟨slot, -, rfl⟩ := Graph.setVertexProperty_eq_ok hset
      have hkeeps := ih hrest
      exact hkeeps

/-- Adding the vertices of a sample keeps a store sound, brings no edges, and uses their texts. -/
theorem addVertices_grows {vertices : List (String × String × List (String × Value))}
    {s : Store} {next : Graph} (hs : s.Sound) (h : addVertices vertices s.graph = .ok next) :
    ({ s with graph := next } : Store).Sound ∧ next.edges = s.graph.edges ∧
      ∀ id, next.vertexIndex.contains id = true →
        s.graph.vertexIndex.contains id = true ∨ ∃ v ∈ vertices, id = .text v.1 := by
  induction vertices generalizing s with
  | nil => cases h; exact ⟨hs, rfl, fun id hc => .inl hc⟩
  | cons head rest ih =>
      obtain ⟨name, label, properties⟩ := head
      obtain ⟨⟨v, middle⟩, hadd, hrest⟩ := Except.bind_eq_ok.mp h
      obtain ⟨added, hinsert, hset⟩ := Graph.addVertex_eq_ok hadd
      obtain ⟨-, -, rfl⟩ := Graph.insertVertex_eq_ok hinsert
      obtain ⟨hindex, hedges⟩ := setVertexProperties_keeps hset
      have hadded := Store.Sound.preserved.addVertex hs hadd
      obtain ⟨hsound, hsame, hgrows⟩ := ih (s := { s with graph := middle }) hadded hrest
      refine ⟨hsound, hsame.trans hedges, fun id hc => ?_⟩
      rcases hgrows id hc with hmiddle | ⟨v, hv, rfl⟩
      · have hsame : ({ s with graph := middle } : Store).graph.vertexIndex = middle.vertexIndex :=
          rfl
        rw [hsame, hindex] at hmiddle
        simp only [OrderedMap.contains, OrderedMap.get?_insert] at hmiddle
        split at hmiddle
        next hid => exact .inr ⟨_, List.mem_cons_self, hid.symm⟩
        next => exact .inl hmiddle
      · exact .inr ⟨v, List.mem_cons_of_mem _ hv, rfl⟩

theorem addEdge_eq_ok {label : String} {source target : ElementId} {s next : Store} {e : Edge}
    (h : s.addEdge label source target = (.ok e, next)) :
    ∃ near far, s.graph.vertexIndex.get? source = some near ∧
      s.graph.vertexIndex.get? target = some far ∧
      next = ⟨s.graph.withEdge ⟨s.ids.next.1, label, .empty, near, far⟩, s.ids.next.2⟩ := by
  unfold Store.addEdge at h
  cases hinsert : s.graph.insertEdge s.ids.next.1 label source target with
  | error err =>
      simp only [hinsert] at h
      cases h
  | ok added =>
      simp only [hinsert] at h
      cases h
      obtain ⟨near, far, hsource, htarget, -, hgraph⟩ := Graph.insertEdge_eq_ok hinsert
      exact ⟨near, far, hsource, htarget, by rw [hgraph]; rfl⟩

/-- Adding the edges of a sample counts each at the vertex that it leads to. -/
theorem addEdges_grows {edges : List (String × String × String)} {s next : Store} (hs : s.Sound)
    (h : addEdges edges s = .ok next) :
    next.Sound ∧ next.graph.vertexIndex = s.graph.vertexIndex ∧ next.ids.issue = s.ids.issue ∧
      ∀ label text, next.graph.degree .incoming [label] (.text text) =
        s.graph.degree .incoming [label] (.text text) +
          edges.countP fun e => decide (e.1 = label ∧ text = e.2.2) := by
  induction edges generalizing s with
  | nil => cases h; exact ⟨hs, rfl, rfl, fun label text => rfl⟩
  | cons head rest ih =>
      obtain ⟨name, source, target⟩ := head
      have hsound := (hs.perform (.addEdge name (.text source) (.text target))).1
      simp only [addEdges, Operation.perform] at h hsound
      cases hadd : s.addEdge name (.text source) (.text target) with
      | mk outcome middle =>
          rw [hadd] at h hsound
          cases outcome with
          | error err => cases h
          | ok e =>
              obtain ⟨hnext, hindex, hissue, hcount⟩ := ih hsound h
              obtain ⟨near, far, -, htarget, rfl⟩ := addEdge_eq_ok hadd
              refine ⟨hnext, hindex, hissue, fun label text => ?_⟩
              rw [hcount, hs.graph_wellFormed.degree_incoming htarget, List.countP_cons,
                Nat.add_assoc, Nat.add_comm (List.countP _ _)]
              simp

/-- The sample is such a store, and its edges are counted where they lead. -/
theorem seed_intact {issue : Nat → String} (hissue : FreshSupply issue) {start : Store}
    (h : seed ⟨issue, 0⟩ = .ok start) :
    Intact start ∧ start.ids.issue = issue ∧
      ∀ label text, start.graph.degree .incoming [label] (.text text) =
        sampleEdges.countP fun e => decide (e.1 = label ∧ text = e.2.2) := by
  obtain ⟨graph, hvertices, hedges⟩ := Except.bind_eq_ok.mp h
  obtain ⟨hsound, hnone, hgrows⟩ := addVertices_grows (Store.Sound.start hissue.injective) hvertices
  obtain ⟨hsound, hindex, hsame, hcount⟩ := addEdges_grows hsound hedges
  have hstart : start.ids.issue = issue := hsame
  refine ⟨⟨hsound, ?_, fun id hc => ?_⟩, hstart, fun label text => ?_⟩
  · rw [hstart]
    exact hissue
  · rw [hindex] at hc
    rcases hgrows id hc with hempty | ⟨v, hv, rfl⟩
    · cases hempty
    · refine ⟨v.1, rfl, .inl ?_⟩
      rcases List.mem_append.mp hv with hv | hv
      · obtain ⟨u, hu, rfl⟩ := List.mem_map.mp hv
        exact List.mem_append_left _ (List.mem_map.mpr ⟨u, hu, rfl⟩)
      · obtain ⟨p, hp, rfl⟩ := List.mem_map.mp hv
        exact List.mem_append_right _ (List.mem_map.mpr ⟨p, hp, rfl⟩)
  · have hzero : graph.degree .incoming [label] (.text text) = 0 := by
      have hempty : graph.edges = .empty := hnone
      unfold Graph.degree
      cases graph.vertexIndex.get? (.text text) with
      | none => rfl
      | some slot => simp [Graph.edgesAt, hempty, Arena.live, Arena.empty, Arena.liveFrom]
    rw [hcount, hzero, Nat.zero_add]

end Social

end GraphGateway
