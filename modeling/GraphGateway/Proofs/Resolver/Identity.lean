import GraphGateway.Proofs.Evaluation.Reachable
import GraphGateway.Proofs.Evaluation.Selection
import GraphGateway.Proofs.Graph.Growth

/-!
# Identity of records

A formatted record shows the identifier and the label of its vertex under the
names `id` and `__typename`. Properties are shown under their own names in the
same object and come later, so one of these two names hides what the system shows
there. Records identify their vertex exactly if no property does so with another
value.
-/

namespace GraphGateway

namespace VertexRecord

def identifierField : String :=
  Key.fieldName (.token .id)

/-- What the system shows of a vertex under a name. -/
def systemField? (r : VertexRecord) (name : String) : Option Json :=
  if name = typenameField then some (.string r.label)
  else if name = identifierField then some r.id.toJson
  else none

/-- An object shows the identifier and the label of a vertex. -/
structure IdentifiedBy (r : VertexRecord) (object : Fields) : Prop where
  identifier : object.get? identifierField = some r.id.toJson
  label : object.get? typenameField = some (.string r.label)

/-- Properties that are named like a field of the system show the same as that field. -/
structure Unshadowed (r : VertexRecord) : Prop where
  identifier : ∀ v, r.properties.get? identifierField = some v → v.toJson = r.id.toJson
  label : ∀ v, r.properties.get? typenameField = some v → v.toJson = .string r.label

variable {r : VertexRecord}

/-- Fields show properties, and what the system has to show where there is none. -/
theorem get?_toObject_record (h : r.properties.Distinct) (name : String) :
    (Record.toObject r.record).get? name =
      ((r.properties.get? name).map Value.toJson).or (r.systemField? name) := by
  -- the entries of the system come first, so that properties are written over them
  have hobject : Record.toObject r.record =
      ((OrderedMap.empty.insert identifierField r.id.toValue.toJson).insert typenameField
        (.string r.label)).insertAll (r.properties.entries.map fun b => (b.1, b.2.toJson)) := by
    simp only [Record.toObject, record, List.map_cons, List.map_map]
    rfl
  have hkeys : ((r.properties.entries.map fun b => (b.1, b.2.toJson)).map Prod.fst).Nodup := by
    simpa [List.map_map, Function.comp_def, OrderedMap.Distinct, OrderedMap.keys] using h
  have hid : r.id.toValue.toJson = r.id.toJson := by cases r.id <;> rfl
  have hsystem : ((OrderedMap.empty.insert identifierField r.id.toValue.toJson).insert
      typenameField (.string r.label)).get? name = r.systemField? name := by
    simp only [OrderedMap.get?_insert, OrderedMap.get?_empty, systemField?, hid,
      @eq_comm String _ name]
  rw [hobject, OrderedMap.get?_insertAll hkeys, OrderedMap.lookup_map, hsystem]
  rfl

/-- A field of the system shows what it should unless a property shows something else. -/
theorem get?_toObject_system (h : r.properties.Distinct) {name : String} {shown : Json}
    (hname : r.systemField? name = some shown) :
    (Record.toObject r.record).get? name = some shown ↔
      ∀ v, r.properties.get? name = some v → v.toJson = shown := by
  rw [get?_toObject_record h, hname]
  cases r.properties.get? name with
  | none => simp
  | some v => simp

theorem identifiedBy_iff (h : r.properties.Distinct) :
    r.IdentifiedBy (Record.toObject r.record) ↔ r.Unshadowed := by
  have hidentifier : r.systemField? identifierField = some r.id.toJson := rfl
  have hlabel : r.systemField? typenameField = some (.string r.label) := rfl
  constructor
  · intro hobject
    exact ⟨(get?_toObject_system h hidentifier).mp hobject.identifier,
      (get?_toObject_system h hlabel).mp hobject.label⟩
  · intro hproperties
    exact ⟨(get?_toObject_system h hidentifier).mpr hproperties.identifier,
      (get?_toObject_system h hlabel).mpr hproperties.label⟩

end VertexRecord

/-- Vertices come out as records, and these identify them exactly if no property hides that. -/
theorem selection_identifies {s : Store} (hs : s.Reachable) {r : VertexRecord}
    (hr : s.graph.recordOf? r.id = some r) :
    (∀ access,
      (Step.onValues access Step.selection [.vertex r.reference]).Yields s [.map r.record]) ∧
    (∀ t : Traversal, t.steps ≠ [] → t.isMutating = false →
      (s.submit t).1 = .ok [.vertex r.reference] →
        s.submit (recordSelection t) = (.ok [.map r.record], s)) ∧
    ∃ object, (Value.map r.record).formatted = .object object ∧
      (r.IdentifiedBy object ↔ r.Unshadowed) := by
  have hw : s.graph.WellFormed := hs.sound.graph_wellFormed
  have hd : r.properties.Distinct := (hw.recordOf?_eq_some hr).2.1
  have hone : ∀ q ∈ [r], s.graph.recordOf? q.id = some q ∧ q.properties.Distinct := by
    simpa using And.intro hr hd
  have hyields : ∀ access,
      (Step.onValues access Step.selection [.vertex r.reference]).Yields s [.map r.record] :=
    fun access => Step.selection_yields access hone
  refine ⟨hyields, fun t hne hread hrun => ?_, _, rfl, VertexRecord.identifiedBy_iff hd⟩
  exact Store.submit_extend_yields hw hne hread hrun rfl rfl (hyields .read)

/-- The one who follows in the store of two users. -/
def VertexRecord.follower : VertexRecord :=
  ⟨.text "u1", "User", ⟨[("name", .string "Ann")]⟩⟩

theorem selection_identifies_follower :
    ∃ object, Store.follower.submit (recordSelection (.root [.vertices [.string "u1"]])) =
        (.ok [.map VertexRecord.follower.record], Store.follower) ∧
      (Value.map VertexRecord.follower.record).formatted = .object object ∧
      VertexRecord.follower.IdentifiedBy object := by
  have hlive : Store.follower.graph.recordOf? VertexRecord.follower.id =
      some VertexRecord.follower := rfl
  have hrun : (Store.follower.submit (.root [.vertices [.string "u1"]])).1 =
      .ok [.vertex VertexRecord.follower.reference] := rfl
  obtain ⟨-, hsubmit, object, hobject, hidentified⟩ :=
    selection_identifies Store.follower_reachable hlive
  refine ⟨object, hsubmit _ (List.cons_ne_nil _ _) rfl hrun, hobject, hidentified.mpr ?_⟩
  constructor
  · intro v hv
    cases hv
  · intro v hv
    cases hv

/-- A vertex with properties that are named like the fields of the system. -/
def VertexRecord.shadowed : VertexRecord :=
  ⟨.text "u1", "User", ⟨[("id", .string "shadow"), ("__typename", .string "Ghost")]⟩⟩

def Store.shadowed : Store :=
  (Store.start Store.unary).performAll
    [.addVertex (.text "u1") "User" [("id", .string "shadow"), ("__typename", .string "Ghost")]]

/-- Properties can hide identifier and label of their vertex. -/
theorem selection_shadowed :
    Store.shadowed.Reachable ∧
      Store.shadowed.graph.recordOf? (.text "u1") = some VertexRecord.shadowed ∧
      Store.shadowed.submit (recordSelection (.root [.vertices [.string "u1"]])) =
        (.ok [.map VertexRecord.shadowed.record], Store.shadowed) ∧
      ∃ object, (Value.map VertexRecord.shadowed.record).formatted = .object object ∧
        ¬ VertexRecord.shadowed.IdentifiedBy object := by
  refine ⟨⟨Store.unary, _, Store.unary_injective, rfl⟩, rfl, rfl, _, rfl, fun hidentified => ?_⟩
  have hfound : (Record.toObject VertexRecord.shadowed.record).get? "id" =
      some (.string "shadow") := rfl
  have hid : some (Json.string "shadow") = some (.string "u1") :=
    hfound.symm.trans hidentified.identifier
  simp at hid

end GraphGateway
