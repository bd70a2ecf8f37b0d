import GraphGateway.Resolver.Pipeline
import GraphGateway.Proofs.Evaluation.Reachable
import GraphGateway.Proofs.Graph.Growth
import GraphGateway.Proofs.Graph.Ledger

/-!
# Whole records

The selection that resolvers make unless told otherwise reads a vertex whole: its
identifier, its label, and every property in its place with the value that is
stored. Each value leaves the graph as a list of one and is taken out again, so
that stored lists and maps come through unharmed. In a store that came about by
operations, the properties stand in the order in which they were first written.
-/

namespace GraphGateway

/-- What the graph stores of a vertex, as one record. -/
def VertexRecord.record (r : VertexRecord) : Record :=
  ⟨(.token .id, r.id.toValue) :: (.token .label, .string r.label) ::
    r.properties.entries.map fun (key, value) => (.name key, value)⟩

theorem VertexRecord.record_distinct {r : VertexRecord} (h : r.properties.Distinct) :
    r.record.Distinct := by
  have hnames : (r.properties.keys.map Key.name).Nodup :=
    List.Nodup.map (fun _ _ heq => Key.name.inj heq) h
  simpa [OrderedMap.Distinct, OrderedMap.keys, record, Function.comp_def] using hnames

/-- An entry as it leaves the graph: properties of vertices are lists of one value. -/
def listed : Key × Value → Key × Value
  | (.token t, value) => (.token t, value)
  | (.name key, value) => (.name key, .list [value])

theorem map_listed_keys (entries : List (Key × Value)) :
    (entries.map listed).map Prod.fst = entries.map Prod.fst := by
  rw [List.map_map]
  refine List.map_congr_left fun entry _ => ?_
  obtain ⟨key, value⟩ := entry
  cases key <;> rfl

theorem Graph.valueMap_vertex {g : Graph} {v : Vertex} {r : VertexRecord}
    (h : g.recordOf? v.id = some r) (hd : r.properties.Distinct) :
    g.valueMap true [] (.vertex v) = .ok ⟨r.record.entries.map listed⟩ := by
  have helement : g.element "valueMap" (.vertex v) = .ok ⟨r.id, r.label, r.properties⟩ := by
    simp [Graph.element, Graph.element?_vertex, h]
  have hkeys : ((r.record.entries.map listed).map Prod.fst).Nodup := by
    rw [map_listed_keys]
    exact VertexRecord.record_distinct hd
  unfold Graph.valueMap
  rw [helement, Except.ok_bind, ← OrderedMap.ofList_eq_self hkeys]
  simp [VertexRecord.record, listed, Graph.admits, Function.comp_def]

namespace Step

variable {s : Store}

def selection : List Step :=
  [.valueMap true [], .modulator .shape (.anonymous [.unfold])]

/-- Shaping takes every value out of its list again. -/
theorem shapeEntries_listed (access : Access) (s : Store) {record : Record} (hd : record.Distinct) :
    (Stage.shapeEntries ((modulator .shape (.anonymous [.unfold])).childRoutine access)
      ⟨record.entries.map listed⟩).Yields s record := by
  have hentry : ∀ entry ∈ record.entries,
      (Stage.shapeEntries.shapeEntry
        ((modulator .shape (.anonymous [.unfold])).childRoutine access) (listed entry)).Yields s
        [entry] := by
    intro entry _
    obtain ⟨key, value⟩ := entry
    cases key with
    | token t => exact Eval.Yields.pure _
    | name k =>
        have hchild : ((modulator .shape (.anonymous [.unfold])).childRoutine access
            (some [.list [value]])).Yields s [value] := unfold_yields access [.list [value]] s
        have hfirst : (Stage.first ((modulator .shape (.anonymous [.unfold])).childRoutine access)
            (.list [value])).Yields s (some value) := hchild.bind (Eval.Yields.pure _)
        exact hfirst.bind (Eval.Yields.pure _)
  have hall := Eval.Yields.collect_map record.entries hentry
  rw [List.flatMap_singleton'] at hall
  have hrecord := hall.bind (f := fun entries => pure (OrderedMap.ofList entries))
    (Eval.Yields.pure _)
  rwa [OrderedMap.ofList_eq_self hd] at hrecord

/-- Every vertex that a reference leads to comes out whole, in its place. -/
theorem selection_yields_found (access : Access) {found : List (Vertex × VertexRecord)}
    (h : ∀ p ∈ found, s.graph.recordOf? p.1.id = some p.2 ∧ p.2.properties.Distinct) :
    (onValues access selection (found.map fun p => .vertex p.1)).Yields s
      (found.map fun p => .map p.2.record) := by
  have hmodulator : ∀ m ∈ [modulator .shape (.anonymous [.unfold])], m.isModulator = true := by
    simp [isModulator]
  unfold selection
  rw [onValues_modulated rfl hmodulator]
  refine Eval.Yields.bind (Eval.Yields.pure ()) (Eval.Yields.each_map found fun p hp => ?_)
  obtain ⟨hread, hd⟩ := h p hp
  have hmap : (Eval.look fun g => g.valueMap true [] (.vertex p.1)).Yields s
      ⟨p.2.record.entries.map listed⟩ := Eval.Yields.look (Graph.valueMap_vertex hread hd)
  have hshaped := shapeEntries_listed access s (VertexRecord.record_distinct hd)
  exact hmap.bind (hshaped.bind (Eval.Yields.pure _))

/-- The same of references to the vertices as they are. -/
theorem selection_yields (access : Access) {records : List VertexRecord}
    (h : ∀ r ∈ records, s.graph.recordOf? r.id = some r ∧ r.properties.Distinct) :
    (onValues access selection (records.map fun r => .vertex r.reference)).Yields s
      (records.map fun r => .map r.record) := by
  have hfound : ∀ p ∈ records.map fun r => (r.reference, r),
      s.graph.recordOf? p.1.id = some p.2 ∧ p.2.properties.Distinct := by
    simpa [VertexRecord.reference] using h
  simpa [Function.comp_def] using selection_yields_found access hfound

/-- Of what a selection reads, only the first is kept. -/
theorem selection_first_yields (access : Access) (records : List VertexRecord)
    (h : ∀ r ∈ records, s.graph.recordOf? r.id = some r ∧ r.properties.Distinct) :
    (onValues access (selection ++ [.limit 1]) (records.map fun r => .vertex r.reference)).Yields s
      ((records.take 1).map fun r => .map r.record) := by
  rw [onValues_append rfl, List.map_take]
  exact (selection_yields access h).bind (limit_one_yields access _ s)

end Step

/-- The first record of a traversal, as more steps of the same traversal. -/
theorem firstOf_recordSelection (steps : List Step) :
    firstOf (recordSelection (.root steps)) = .root (steps ++ (Step.selection ++ [.limit 1])) := by
  have hsteps : firstOf (recordSelection (.root steps)) =
      .root ((steps ++ Step.selection) ++ [.limit 1]) := rfl
  rw [hsteps, List.append_assoc]

namespace Store

variable {s : Store}

/-! ## Reachable stores -/

/-- The store is sound, and its graph has a ledger. -/
structure Ledgered (s : Store) : Prop where
  sound : s.Sound
  ledger : ∃ written, s.graph.Ledger written

namespace Ledgered

theorem insertVertex (hs : s.Ledgered) {id : ElementId} {label : String} {v : Vertex}
    {graph : Graph} (h : s.graph.insertVertex id label = .ok (v, graph)) :
    ({ s with graph } : Store).Ledgered := by
  obtain ⟨written, hledger⟩ := hs.ledger
  exact ⟨hs.sound.insertVertex h, _, hledger.insertVertex hs.sound.graph_wellFormed h⟩

theorem setVertexProperty (hs : s.Ledgered) {id : ElementId} {key : String} {value : Value}
    {graph : Graph} (h : s.graph.setVertexProperty id key value = .ok graph) :
    ({ s with graph } : Store).Ledgered := by
  obtain ⟨written, hledger⟩ := hs.ledger
  obtain ⟨slot, hslot, -⟩ := Graph.setVertexProperty_eq_ok h
  exact ⟨hs.sound.setVertexProperty h, _, hledger.setVertexProperty hslot h⟩

theorem draw (hs : s.Ledgered) : ({ s with ids := s.ids.next.2 } : Store).Ledgered :=
  ⟨hs.sound.draw, hs.ledger⟩

theorem invariant (access : Access) : Invariant access Ledgered where
  wellFormed := fun _ hs => hs.sound.graph_wellFormed
  draw := fun _ _ hs => hs.draw
  insertVertex := fun _ _ _ _ _ hs h => hs.draw.insertVertex h
  insertEdge := fun _ _ _ _ _ _ _ hs h =>
    ⟨hs.sound.insertEdge h, hs.ledger.imp fun _ hl => hl.insertEdge h⟩
  setVertexProperty := fun _ _ _ _ _ _ hs h => hs.setVertexProperty h
  setEdgeProperty := fun _ _ _ _ _ _ hs h =>
    ⟨hs.sound.setEdgeProperty h, hs.ledger.imp fun _ hl => hl.setEdgeProperty h⟩
  renameVertex := fun _ _ _ _ _ _ hs h =>
    ⟨hs.sound.renameVertex h, hs.ledger.imp fun _ hl => hl.renameVertex h⟩
  removeVertex := fun _ _ id hs =>
    ⟨hs.sound.removeVertex id, hs.ledger.imp fun _ hl => hl.removeVertex id⟩
  removeEdge := fun _ _ id hs =>
    ⟨hs.sound.removeEdge id, hs.ledger.imp fun _ hl => hl.removeEdge id⟩

theorem preserved : Preserved Ledgered where
  invariant := Ledgered.invariant
  insertVertex := fun _ _ _ _ _ hs h => hs.insertVertex h

end Ledgered

/-- However a store came about, there is a ledger of its properties. -/
theorem Reachable.ledger (h : s.Reachable) : ∃ written, s.graph.Ledger written :=
  (Ledgered.preserved.reachable (fun _ hi => ⟨.start hi, _, .empty⟩) h).ledger

/-- Live references with the records they lead to. -/
theorem exists_found (vs : List Vertex)
    (hlive : ∀ v ∈ vs, (s.graph.recordOf? v.id).isSome = true) :
    ∃ found : List (Vertex × VertexRecord),
      found.map Prod.fst = vs ∧ ∀ p ∈ found, s.graph.recordOf? p.1.id = some p.2 := by
  induction vs with
  | nil => exact ⟨[], rfl, by simp⟩
  | cons v rest ih =>
      obtain ⟨hv, hrest⟩ := List.forall_mem_cons.mp hlive
      obtain ⟨r, hr⟩ := Option.isSome_iff_exists.mp hv
      obtain ⟨found, hfound, hrecords⟩ := ih hrest
      exact ⟨(v, r) :: found, by simp [hfound], List.forall_mem_cons.mpr ⟨hr, hrecords⟩⟩

/-- The selection that is made by default returns vertices whole, whatever the store. Every live
vertex that reaches it becomes one record, in the same order: its identifier, its label, and all
properties in the order in which they were first written, each with the value written last,
whichever way the graph is known to have come about. -/
theorem Reachable.selection_whole (hs : s.Reachable) :
    (∃ written, s.graph.Ledger written) ∧
      (∀ written, s.graph.Ledger written → ∀ slot r, s.graph.vertices.get? slot = some r →
        r.properties.HoldsWrites (written slot)) ∧
      ∀ vs : List Vertex, (∀ v ∈ vs, (s.graph.recordOf? v.id).isSome = true) →
        ∃ rs : List VertexRecord,
          vs.map (fun v => s.graph.recordOf? v.id) = rs.map some ∧
          vs.map Vertex.id = rs.map VertexRecord.id ∧
          (∀ access, (Step.onValues access Step.selection (vs.map .vertex)).Yields s
            (rs.map fun r => .map r.record)) ∧
          ∀ (t : Traversal) (before : Store), t.steps ≠ [] →
            before.submit t = (.ok (vs.map .vertex), s) →
            before.submit (recordSelection t) = (.ok (rs.map fun r => .map r.record), s) := by
  have hw := hs.sound.graph_wellFormed
  refine ⟨hs.ledger, fun written hledger slot r hr => hledger.holds hr, fun vs hlive => ?_⟩
  obtain ⟨found, rfl, hrecords⟩ := exists_found vs hlive
  have hstored : ∀ p ∈ found, p.2.id = p.1.id ∧ p.2.properties.Distinct := fun p hp =>
    ⟨(hw.recordOf?_eq_some (hrecords p hp)).1, (hw.recordOf?_eq_some (hrecords p hp)).2.1⟩
  have hselect : ∀ access, (Step.onValues access Step.selection
      (found.map fun p => .vertex p.1)).Yields s (found.map fun p => .map p.2.record) :=
    fun access => Step.selection_yields_found access fun p hp => ⟨hrecords p hp, (hstored p hp).2⟩
  refine ⟨found.map Prod.snd, ?_, ?_, fun access => ?_, fun t before hne hrun => ?_⟩
  · simpa using hrecords
  · simpa using fun v r hp => ((hstored (v, r) hp).1).symm
  · simpa [Function.comp_def] using hselect access
  · rw [List.map_map] at hrun ⊢
    exact submit_extend_leads hne hrun rfl rfl (hselect _).leads

/-- A store with a vertex that holds lists, a map and nothing at all. -/
def furnished : Store :=
  (start unary).performAll
    [.addVertex (.text "u1") "User"
      [("tags", .list [.string "a", .string "b"]), ("none", .list []),
        ("home", .map (.ofList [(.name "city", .string "Oslo")])), ("left", .null),
        ("tags", .list [.null])]]

theorem selection_whole_furnished :
    furnished.Reachable ∧
      furnished.submit (recordSelection (.root [.vertices []])) =
        (.ok
          [.map
            ⟨[(.token .id, .string "u1"), (.token .label, .string "User"),
              (.name "tags", .list [.null]), (.name "none", .list []),
              (.name "home", .map ⟨[(.name "city", .string "Oslo")]⟩), (.name "left", .null)]⟩],
          furnished) := by
  have hreachable : furnished.Reachable := ⟨unary, _, unary_injective, rfl⟩
  obtain ⟨-, -, hwhole⟩ := hreachable.selection_whole
  obtain ⟨rs, hrs, -, -, hsubmit⟩ := hwhole [⟨.text "u1", "User"⟩] (by decide)
  have hsteps : (Traversal.root [.vertices []]).steps ≠ [] := List.cons_ne_nil _ _
  refine ⟨hreachable, (hsubmit (.root [.vertices []]) furnished hsteps rfl).trans ?_⟩
  obtain ⟨r, rfl⟩ : ∃ r, rs = [r] := by
    rw [← List.length_eq_one_iff]
    simpa using (congrArg List.length hrs).symm
  have hread : furnished.graph.recordOf? (.text "u1") = some r := (List.cons.inj hrs).1
  cases hread
  rfl

end Store

end GraphGateway
