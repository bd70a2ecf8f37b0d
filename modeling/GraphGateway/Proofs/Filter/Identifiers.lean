import GraphGateway.Proofs.Json
import GraphGateway.Proofs.Evaluation.Listing
import GraphGateway.Proofs.Filter.Compile
import GraphGateway.Proofs.Graph.Growth

/-!
# Filtering by identifier

An identifier that was given away as JSON can be filtered by. A universally unique
identifier comes back as a text, but loose equality still tells it apart from all
identifiers with other JSON. So the comparisons of the filter on identifiers are
comparisons of their JSON, on all vertices and in their order.
-/

namespace GraphGateway

namespace ElementId

/-- The identifier that the JSON of an identifier reads as. -/
def reread : ElementId → ElementId
  | .uuid u => .text u.text
  | id => id

theorem toJson_toValue (id : ElementId) : id.toValue.toJson = id.toJson := by
  cases id <;> simp [toValue, Value.toJson, toJson]

theorem isNull_toJson (id : ElementId) : id.toJson.isNull = false := by
  cases id <;> rfl

theorem coerce_toJson (id : ElementId) :
    Filter.Kind.id.coerce id.toJson = .ok id.reread.toValue := by
  cases id with
  | int n => simp [Filter.Kind.coerce, toJson, Json.ofInt64, Json.fitsInt64_toInt, reread, toValue]
  | text s => rfl
  | uuid u => rfl

theorem coerceEach_toJson (ids : List ElementId) :
    Filter.coerceEach Filter.Kind.id.coerce (ids.map toJson) =
      .ok (ids.map fun id => id.reread.toValue) := by
  induction ids with
  | nil => rfl
  | cons id rest ih => simp [Filter.coerceEach, coerce_toJson, ih, Except.map]

/-- Loose equality with what was read is equality of the JSON. -/
theorem looseEq_reread_iff (id other : ElementId) :
    id.toValue.looseEq other.reread.toValue = true ↔ id.toJson = other.toJson := by
  cases id with
  | int m =>
      cases other with
      | int n => simp [toValue, reread, Value.looseEq, Value.same, toJson, Json.ofInt64_inj]
      | text t => simp [toValue, reread, Value.looseEq, Value.same, toJson, Json.ofInt64]
      | uuid v => simp [toValue, reread, Value.looseEq, Value.same, toJson, Json.ofInt64]
  | text s =>
      cases other with
      | int n => simp [toValue, reread, Value.looseEq, Value.same, toJson, Json.ofInt64]
      | text t => simp [toValue, reread, Value.looseEq, Value.same, toJson]
      | uuid v => simp [toValue, reread, Value.looseEq, Value.same, toJson]
  | uuid u =>
      cases other with
      | int n => simp [toValue, reread, Value.looseEq, Value.same, toJson, Json.ofInt64]
      | text t => simp [toValue, reread, Value.looseEq, toJson]
      | uuid v => simp [toValue, reread, Value.looseEq, toJson]

end ElementId

namespace Filter

def idFilter : ScalarFilter :=
  .ofField "id" .id

/-- A single comparison is compiled to a test of identifiers, which some of them pass. -/
def IdTest (operator : String) (wanted : Json) (P : ElementId → Prop) : Prop :=
  ∃ p, idFilter.compile [(operator, wanted)] = .ok [.has (.token .id) p] ∧
    ∀ id : ElementId, p.accepts id.toValue = true ↔ P id

namespace IdTest

theorem eq (id : ElementId) : IdTest "eq" id.toJson fun other => other.toJson = id.toJson := by
  have hbuild : (Operator.relation .eq).build id.toJson Kind.id.coerce =
      .ok (.relation .eq id.reread.toValue) := by
    rw [Operator.build, id.coerce_toJson]
    rfl
  exact ⟨_, idFilter.compile_singleton rfl id.isNull_toJson hbuild,
    fun other => other.looseEq_reread_iff id⟩

theorem ne (id : ElementId) : IdTest "ne" id.toJson fun other => other.toJson ≠ id.toJson := by
  have hbuild : (Operator.relation .neq).build id.toJson Kind.id.coerce =
      .ok (.relation .neq id.reread.toValue) := by
    rw [Operator.build, id.coerce_toJson]
    rfl
  refine ⟨_, idFilter.compile_singleton rfl id.isNull_toJson hbuild, fun other => ?_⟩
  have hloose := other.looseEq_reread_iff id
  simp [Predicate.accepts, Relation.holds, ← hloose]

/-- A list of what was read holds something loosely equal if the JSON is in the list. -/
theorem any_looseEq (ids : List ElementId) (other : ElementId) :
    ((ids.map fun id => id.reread.toValue).any fun candidate =>
      other.toValue.looseEq candidate) = true ↔ other.toJson ∈ ids.map ElementId.toJson := by
  simp only [List.any_map, List.any_eq_true, Function.comp_apply, ElementId.looseEq_reread_iff,
    List.mem_map]
  exact exists_congr fun id => and_congr_right fun _ => eq_comm

theorem member (ids : List ElementId) :
    IdTest "in" (.array (ids.map ElementId.toJson))
      fun other => other.toJson ∈ ids.map ElementId.toJson := by
  have hbuild : Operator.member.build (.array (ids.map ElementId.toJson)) Kind.id.coerce =
      .ok (.within (ids.map fun id => id.reread.toValue)) := by
    simp only [Operator.build, Json.asArray?, expect, Except.ok_bind, ElementId.coerceEach_toJson]
    rfl
  exact ⟨_, idFilter.compile_singleton rfl rfl hbuild, any_looseEq ids⟩

theorem notMember (ids : List ElementId) :
    IdTest "not_in" (.array (ids.map ElementId.toJson))
      fun other => other.toJson ∉ ids.map ElementId.toJson := by
  have hbuild : Operator.notMember.build (.array (ids.map ElementId.toJson)) Kind.id.coerce =
      .ok (.without (ids.map fun id => id.reread.toValue)) := by
    simp only [Operator.build, Json.asArray?, expect, Except.ok_bind, ElementId.coerceEach_toJson]
    rfl
  refine ⟨_, idFilter.compile_singleton rfl rfl hbuild, fun other => ?_⟩
  have hany := any_looseEq ids other
  simp only [Predicate.accepts, Bool.not_eq_true', ← hany, Bool.not_eq_true]

end IdTest

end Filter

namespace Store

open GraphGateway.Filter

variable {s : Store}

/-- Filtered by one comparison of identifiers, all vertices come down to certain ones. -/
def FilteredTo (s : Store) (operator : String) (wanted : Json) (vs : List Vertex) : Prop :=
  ∃ t, idFilter.apply (.root [.vertices []]) (.ofList [(operator, wanted)]) = .ok t ∧
    s.submit t = (.ok (vs.map .vertex), s)

/-- All vertices, in the order of their slots. -/
theorem Sound.vertices_listed (hs : s.Sound) : ∃ vs : List Vertex,
    s.submit (.root [.vertices []]) = (.ok (vs.map .vertex), s) ∧
      ∀ v, v ∈ vs ↔ ∃ slot, s.graph.vertexIn? slot = some v := by
  obtain ⟨-, -, hlisted⟩ := hs.graph_wellFormed.allVertices_listed
  exact ⟨_, submit_vertices hs.graph_wellFormed, hlisted⟩

/-- A test of identifiers leaves the vertices whose identifiers pass it. -/
theorem Sound.filteredTo (hs : s.Sound) {vs : List Vertex}
    (hall : s.submit (.root [.vertices []]) = (.ok (vs.map .vertex), s))
    (hlive : ∀ v ∈ vs, ∃ slot, s.graph.vertexIn? slot = some v) {operator : String} {wanted : Json}
    {P : ElementId → Prop} (htest : IdTest operator wanted P) :
    s.FilteredTo operator wanted (keeping P vs) := by
  have hw := hs.graph_wellFormed
  obtain ⟨p, hcompile, hpasses⟩ := htest
  have hnarrows : Narrows s [.has (.token .id) p] _ := .has idFilter p
  have hkept : keeping (fun id => ∃ r v, s.graph.recordOf? id = some r ∧
      idFilter.subject? r = some v ∧ p.accepts v = true) vs = keeping P vs := by
    refine keeping_congr fun v hv => ?_
    obtain ⟨slot, hslot⟩ := hlive v hv
    obtain ⟨r, hr, rfl⟩ := Option.map_eq_some_iff.mp hslot
    have hrecord : s.graph.recordOf? r.reference.id = some r := hw.recordOf?_of_live hr
    have hsubject : idFilter.subject? r = some r.id.toValue := rfl
    simp only [hrecord, Option.some.injEq, exists_and_left, exists_eq_left', hsubject]
    exact hpasses r.id
  have hrun := hnarrows.submit_extend (t := .root [.vertices []]) hw (List.cons_ne_nil _ _) rfl
    (congrArg Prod.fst hall)
  rw [hkept] at hrun
  exact ⟨_, congrArg (Except.map _) hcompile, hrun⟩

/-- The identifiers that are given away as JSON can be filtered by. Of all vertices, a comparison
with the JSON of one identifier, or of several, keeps exactly those whose identifiers have that
JSON, or some of it, and the opposite comparison exactly the others. -/
theorem Reachable.filtered_by_identifier (hs : s.Reachable) :
    ∃ vs : List Vertex,
      s.submit (.root [.vertices []]) = (.ok (vs.map .vertex), s) ∧
      (∀ v, v ∈ vs ↔ ∃ slot, s.graph.vertexIn? slot = some v) ∧
      (∀ v ∈ vs,
        v.id.toValue.toJson = v.id.toJson ∧ v ∈ keeping (fun id => id.toJson = v.id.toJson) vs ∧
        s.FilteredTo "eq" v.id.toJson (keeping (fun id => id.toJson = v.id.toJson) vs) ∧
        s.FilteredTo "ne" v.id.toJson (keeping (fun id => id.toJson ≠ v.id.toJson) vs)) ∧
      ∀ ids : List ElementId,
        s.FilteredTo "in" (.array (ids.map ElementId.toJson))
          (keeping (fun id => id.toJson ∈ ids.map ElementId.toJson) vs) ∧
        s.FilteredTo "not_in" (.array (ids.map ElementId.toJson))
          (keeping (fun id => id.toJson ∉ ids.map ElementId.toJson) vs) := by
  have hsound := hs.sound
  obtain ⟨vs, hall, hlisted⟩ := hsound.vertices_listed
  have hfilter := fun {operator wanted P} (htest : IdTest operator wanted P) =>
    hsound.filteredTo hall (fun v hv => (hlisted v).mp hv) htest
  refine ⟨vs, hall, hlisted, fun v hv => ?_, fun ids => ⟨hfilter (.member ids),
    hfilter (.notMember ids)⟩⟩
  have hkept : v ∈ keeping (fun id => id.toJson = v.id.toJson) vs := by
    simpa [keeping] using hv
  exact ⟨v.id.toJson_toValue, hkept, hfilter (.eq v.id), hfilter (.ne v.id)⟩

def zeros : Uuid :=
  ⟨List.replicate 32 ⟨0, by decide⟩, rfl⟩

/-- A store of three users, with a number, its text and a universally unique identifier. -/
def threeKinds : Store :=
  (start unary).performAll
    [.addVertex (.int 7) "User" [], .addVertex (.text "7") "User" [],
      .addVertex (.uuid zeros) "User" []]

theorem filtered_by_identifier_threeKinds :
    threeKinds.Reachable ∧
      threeKinds.FilteredTo "eq" (.string zeros.text) [⟨.uuid zeros, "User"⟩] ∧
      threeKinds.FilteredTo "not_in" (.array [.int 7])
        [⟨.text "7", "User"⟩, ⟨.uuid zeros, "User"⟩] := by
  have hreachable : threeKinds.Reachable := ⟨unary, _, unary_injective, rfl⟩
  obtain ⟨vs, hall, -, hone, hlists⟩ := hreachable.filtered_by_identifier
  have hvertices : [⟨.int 7, "User"⟩, ⟨.text "7", "User"⟩, ⟨.uuid zeros, "User"⟩] = vs := by
    have hsame := Except.ok.inj (congrArg Prod.fst hall)
    exact List.map_injective_iff.mpr (fun _ _ h => Value.vertex.inj h) hsame
  subst hvertices
  have htext : "7" ≠ zeros.text := by decide +kernel
  have hequal := (hone ⟨.uuid zeros, "User"⟩ (by simp)).2.2.1
  have hothers := (hlists [.int 7]).2
  refine ⟨hreachable, ?_, ?_⟩
  · simpa [keeping, ElementId.toJson, Json.ofInt64, htext] using hequal
  · simpa [keeping, ElementId.toJson, Json.ofInt64] using hothers

end Store

end GraphGateway
