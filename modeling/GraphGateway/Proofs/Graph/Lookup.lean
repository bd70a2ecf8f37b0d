import GraphGateway.Proofs.Evaluation.Listing
import GraphGateway.Proofs.Graph.Growth
import GraphGateway.Proofs.Graph.IndexOrder

/-!
# Looking vertices up

Two ways to ask for the vertex with an identifier: to start from it, which finds
it by its text, and to compare the identifiers of all vertices with it. Where no
two vertices share a text, both find the same, unless a number is stored and
asked for as a text, or the other way round: the comparison then finds nothing.
-/

namespace GraphGateway

namespace Graph

variable {g : Graph}

/-- No two vertices have identifiers with the same text. -/
def DistinctTexts (g : Graph) : Prop :=
  ∀ slot other r q, g.vertices.get? slot = some r → g.vertices.get? other = some q →
    r.id.display = q.id.display → slot = other

/-- The vertices whose identifiers have a text, with their slots. -/
def namedBy (g : Graph) (text : String) : List (Nat × VertexRecord) :=
  g.vertices.live.filter fun p => p.2.id.display == text

theorem mem_namedBy (g : Graph) (text : String) (slot : Nat) (r : VertexRecord) :
    (slot, r) ∈ g.namedBy text ↔ g.vertices.get? slot = some r ∧ r.id.display = text := by
  simp [namedBy, List.mem_filter, Arena.mem_live]

theorem namedBy_nodup (g : Graph) (text : String) : (g.namedBy text).Nodup :=
  g.vertices.live_nodup.filter _

def referencesTo (records : List (Nat × VertexRecord)) : List Value :=
  records.map fun p => .vertex p.2.reference

/-! ## Starting from a vertex -/

/-- An exact identifier and one that reads alike both lead to a slot with the text asked for. -/
theorem WellFormed.findSlot?_named (hw : g.WellFormed) {x : ElementId} {slot : Nat}
    (h : findSlot? g.vertexIndex x.toValue = some slot) :
    ∃ r, g.vertices.get? slot = some r ∧ r.id.display = x.display := by
  obtain ⟨r, hr, hexact | ⟨-, hmatches⟩⟩ := (hw.vertices_indexed.findSlot?_names _ _).mp h
  · rw [Value.asId?_toValue] at hexact
    exact ⟨r, hr, by rw [Option.some.inj hexact]⟩
  · exact ⟨r, hr, (ElementId.matchesValue_toValue_iff _ _).mp hmatches⟩

/-- Some slot is found as soon as a vertex has the text asked for. -/
theorem WellFormed.findSlot?_isSome (hw : g.WellFormed) {x : ElementId} {slot : Nat}
    {r : VertexRecord} (hr : g.vertices.get? slot = some r) (htext : r.id.display = x.display) :
    ∃ found, findSlot? g.vertexIndex x.toValue = some found := by
  have hindexed := hw.vertices_indexed
  have hentry : (r.id, slot) ∈ g.vertexIndex.entries :=
    (hindexed.index_distinct.get?_eq_some_iff r.id slot).mp (hindexed.get?_of_live hr)
  have hmatches : r.id.matchesValue x.toValue = true :=
    (ElementId.matchesValue_toValue_iff r.id x).mpr htext
  unfold findSlot?
  split
  · next found hfound => exact ⟨found, rfl⟩
  · have hsome : (g.vertexIndex.entries.find? fun entry =>
        entry.1.matchesValue x.toValue).isSome = true :=
      List.find?_isSome.mpr ⟨(r.id, slot), hentry, hmatches⟩
    obtain ⟨entry, hfound⟩ := Option.isSome_iff_exists.mp hsome
    exact ⟨entry.2, by rw [hfound]; rfl⟩

/-- A list that names one thing once. -/
private theorem eq_singleton_of_mem_iff {α : Type} {items : List α} (hnodup : items.Nodup) {a : α}
    (h : ∀ b, b ∈ items ↔ b = a) : items = [a] := by
  have hperm : items.Perm [a] :=
    (List.perm_ext_iff_of_nodup hnodup (List.nodup_singleton a)).mpr (by simpa using h)
  exact List.perm_singleton.mp hperm

/-- Starting from an identifier finds the vertex with its text. -/
theorem WellFormed.selectVertices_named (hw : g.WellFormed) (hdistinct : g.DistinctTexts)
    (x : ElementId) :
    g.selectVertices [x.toValue] = .ok (referencesTo (g.namedBy x.display)) := by
  rw [hw.selectVertices]
  have hslots : selectSlots g.vertices g.vertexIndex [x.toValue] =
      (findSlot? g.vertexIndex x.toValue).toList := by
    unfold selectSlots
    cases hfound : findSlot? g.vertexIndex x.toValue <;> simp [hfound]
  rw [hslots]
  cases hfound : findSlot? g.vertexIndex x.toValue with
  | none =>
      have hnone : g.namedBy x.display = [] := by
        refine List.eq_nil_iff_forall_not_mem.mpr fun p hp => ?_
        obtain ⟨hr, htext⟩ := (mem_namedBy g x.display p.1 p.2).mp hp
        obtain ⟨found, hsome⟩ := hw.findSlot?_isSome hr htext
        rw [hfound] at hsome
        cases hsome
      rw [hnone]
      rfl
  | some slot =>
      obtain ⟨r, hr, htext⟩ := hw.findSlot?_named hfound
      have hone : g.namedBy x.display = [(slot, r)] := by
        refine eq_singleton_of_mem_iff (g.namedBy_nodup x.display) fun p => ?_
        obtain ⟨other, q⟩ := p
        rw [mem_namedBy, Prod.mk.injEq]
        constructor
        · intro hq
          have hslot := hdistinct other slot q r hq.1 hr (hq.2.trans htext.symm)
          subst hslot
          exact ⟨rfl, Option.some.inj (hq.1.symm.trans hr)⟩
        · intro hsame
          rw [hsame.1, hsame.2]
          exact ⟨hr, htext⟩
      simp [hone, referencesTo, vertexIn?_of_live hr]

/-! ## Comparing all vertices -/

theorem WellFormed.selectVertices_all (hw : g.WellFormed) :
    g.selectVertices [] = .ok (referencesTo g.vertices.live) := by
  have hall : ∀ p ∈ g.vertices.live, g.vertexIn? p.1 = some p.2.reference := fun p hp =>
    vertexIn?_of_live ((Arena.mem_live g.vertices p.1 p.2).mp hp)
  have hslots : selectSlots g.vertices g.vertexIndex [] = g.vertices.live.map Prod.fst := rfl
  rw [hw.selectVertices, hslots, List.filterMap_map]
  unfold referencesTo
  rw [← List.filterMap_eq_map]
  refine congrArg Except.ok (List.filterMap_congr fun p hp => ?_)
  simp [hall p hp]

/-- Of all vertices, those pass the comparison whose identifiers are loosely equal. -/
theorem WellFormed.filter_has_id (hw : g.WellFormed) (x : ElementId) :
    (referencesTo g.vertices.live).filter (g.has (.token .id) (.relation .eq x.toValue)) =
      referencesTo (g.vertices.live.filter fun p => p.2.id.toValue.looseEq x.toValue) := by
  unfold referencesTo
  rw [List.filter_map]
  refine congrArg (List.map _) (List.filter_congr fun p hp => ?_)
  have hr := (Arena.mem_live g.vertices p.1 p.2).mp hp
  have hrecord : g.recordOf? p.2.reference.id = some p.2 := hw.recordOf?_of_live hr
  simp only [Function.comp_apply, has, element?_vertex, hrecord, Option.map_some]
  rfl

theorem filter_looseEq (g : Graph) (x : ElementId) :
    (g.vertices.live.filter fun p => p.2.id.toValue.looseEq x.toValue) =
      (g.namedBy x.display).filter fun p => p.2.id.toValue.looseEq x.toValue := by
  unfold namedBy
  rw [List.filter_filter]
  refine List.filter_congr fun p _ => ?_
  cases hloose : p.2.id.toValue.looseEq x.toValue with
  | false => rfl
  | true =>
      have htext := ((ElementId.looseEq_toValue_iff p.2.id x).mp hloose).1
      simp [htext]

end Graph

namespace Store

variable {s : Store}

def comparing (x : ElementId) : Traversal :=
  .root [.vertices [], .has (.token .id) (.relation .eq x.toValue)]

theorem submit_comparing (hw : s.graph.WellFormed) (x : ElementId) :
    s.submit (comparing x) =
      (.ok (Graph.referencesTo
        ((s.graph.namedBy x.display).filter fun p => p.2.id.toValue.looseEq x.toValue)), s) := by
  have hall : (s.submit (.root [.vertices []])).1 =
      .ok (Graph.referencesTo s.graph.vertices.live) := by
    rw [submit_look (.vertices []) (fun g => g.selectVertices []) rfl rfl rfl,
      hw.selectVertices_all]
  have hcompare := Step.has_yields .read (.token .id) (.relation .eq x.toValue)
    (Graph.referencesTo s.graph.vertices.live) s
  rw [hw.filter_has_id, s.graph.filter_looseEq] at hcompare
  exact submit_extend_yields (t := .root [.vertices []]) hw (List.cons_ne_nil _ _) rfl hall rfl rfl
    hcompare

/-- Starting from an identifier and comparing with it find the same, unless what is stored and what
is asked for are a number and its text. -/
theorem lookups_agree_iff (hs : s.Reachable) (hdistinct : s.graph.DistinctTexts) (x : ElementId) :
    s.submit (.root [.vertices [x.toValue]]) = s.submit (comparing x) ↔
      ∀ slot r, s.graph.vertices.get? slot = some r → r.id.display = x.display →
        ¬ r.id.IsNumberAndText x := by
  have hw : s.graph.WellFormed := hs.sound.graph_wellFormed
  have hstart : s.submit (.root [.vertices [x.toValue]]) =
      (.ok (Graph.referencesTo (s.graph.namedBy x.display)), s) := by
    rw [submit_look (.vertices [x.toValue]) (fun g => g.selectVertices [x.toValue]) rfl rfl rfl,
      hw.selectVertices_named hdistinct]
  rw [hstart, submit_comparing hw]
  constructor
  · intro h slot r hr htext
    have hlengths := congrArg List.length (Except.ok.inj (congrArg Prod.fst h))
    simp only [Graph.referencesTo, List.length_map] at hlengths
    -- nothing is lost, so that every vertex with the text passes the comparison
    have hpasses := List.length_filter_eq_length_iff.mp hlengths.symm (slot, r)
      ((Graph.mem_namedBy s.graph x.display slot r).mpr ⟨hr, htext⟩)
    exact ((ElementId.looseEq_toValue_iff r.id x).mp hpasses).2
  · intro h
    have hpasses : ((s.graph.namedBy x.display).filter
        fun p => p.2.id.toValue.looseEq x.toValue) = s.graph.namedBy x.display := by
      refine List.filter_eq_self.mpr fun p hp => ?_
      obtain ⟨hr, htext⟩ := (Graph.mem_namedBy s.graph x.display p.1 p.2).mp hp
      exact (ElementId.looseEq_toValue_iff p.2.id x).mpr ⟨htext, h p.1 p.2 hr htext⟩
    rw [hpasses]

def numbered : Store :=
  (start unary).performAll [.addVertex (.int 7) "User" []]

theorem numbered_reachable : numbered.Reachable :=
  ⟨unary, _, unary_injective, rfl⟩

theorem numbered_live {slot : Nat} {r : VertexRecord}
    (h : numbered.graph.vertices.get? slot = some r) : slot = 0 ∧ r.id = .int 7 := by
  cases slot with
  | zero =>
      cases h
      exact ⟨rfl, rfl⟩
  | succ slot => cases h

theorem numbered_distinct : numbered.graph.DistinctTexts := by
  intro slot other r q hr hq _
  rw [(numbered_live hr).1, (numbered_live hq).1]

theorem lookups_agree_number :
    numbered.submit (.root [.vertices [.int 7]]) = numbered.submit (comparing (.int 7)) := by
  refine (lookups_agree_iff numbered_reachable numbered_distinct (.int 7)).mpr ?_
  intro slot r hr _ hmixed
  rw [(numbered_live hr).2] at hmixed
  exact hmixed

/-- A number is found under its text by starting from it, and missed by comparing. -/
theorem lookups_differ :
    numbered.Reachable ∧ numbered.graph.DistinctTexts ∧
      numbered.submit (.root [.vertices [.string "7"]]) =
        (.ok [.vertex ⟨.int 7, "User"⟩], numbered) ∧
      numbered.submit (comparing (.text "7")) = (.ok [], numbered) := by
  exact ⟨numbered_reachable, numbered_distinct, rfl, rfl⟩

end Store

end GraphGateway
