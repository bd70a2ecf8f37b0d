import GraphGateway.Proofs.Evaluation.Listing
import GraphGateway.Proofs.Social.Reachable

/-!
# Users

A user that was created is there from then on, and reads as it was answered when
it was created. The two ways lead through different traversals, so the record is
what they have in common: creating a user adds its record under an identifier
of its own, no event changes a record, and looking up an identifier among all
vertices finds its record alone.
-/

namespace GraphGateway

namespace Social

/-! ## Looking up a user -/

section Reading

variable {s : Store} {q : VertexRecord} {text : String}

/-- A test for an identifier is passed by the vertex that goes by the text. -/
theorem Intact.has_id (h : Intact s) {slot : Nat} {r : VertexRecord}
    (hr : s.graph.vertices.get? slot = some r) (text : String) :
    s.graph.has (.token .id) (.relation .eq (.string text)) (.vertex r.reference) =
      decide (r.id = .text text) := by
  have hslot := h.wellFormed.vertices_indexed.get?_of_live hr
  have hread : s.graph.recordOf? r.reference.id = some r := h.wellFormed.recordOf?_of_live hr
  obtain ⟨other, hother, -⟩ := h.known r.id (by simp [OrderedMap.contains, hslot])
  unfold Graph.has
  rw [Graph.element?_vertex, hread]
  simp [hother, ElementId.toValue, Predicate.accepts, Relation.holds, Value.looseEq, Value.same]

/-- Among the vertices, a user is told apart by label and identifier. -/
theorem Intact.names (h : Intact s) (hq : s.graph.recordOf? (.text text) = some q)
    (hlabel : q.label = user) {slot : Nat} {v : Vertex} (hv : s.graph.vertexIn? slot = some v) :
    (s.graph.has (.token .id) (.relation .eq (.string text)) (.vertex v) &&
        s.graph.hasLabel [user] (.vertex v)) =
      (v == q.reference) := by
  obtain ⟨r, hr, rfl⟩ := Option.map_eq_some_iff.mp hv
  obtain ⟨hqid, -, far, hfar, hqlive⟩ := h.wellFormed.recordOf?_eq_some hq
  have hhas := h.has_id hr text
  by_cases hid : r.id = .text text
  · have hslot := h.wellFormed.vertices_indexed.get?_of_live hr
    rw [hid, hfar] at hslot
    obtain rfl := Option.some.inj hslot
    obtain rfl := Option.some.inj (hr.symm.trans hqlive)
    have hlabelled := (s.graph.hasLabel_vertex user r.reference).mpr
      ⟨r, by rw [← hq, ← hid]; rfl, hlabel⟩
    simp [hhas, hlabelled, hid]
  · have hdiffers : r.reference ≠ q.reference := by
      intro heq
      exact hid ((congrArg Vertex.id heq).trans hqid)
    simp [hhas, hid, hdiffers]

/-- Of all vertices, both tests leave the user who goes by the text. -/
theorem Intact.found (h : Intact s) (hq : s.graph.recordOf? (.text text) = some q)
    (hlabel : q.label = user) :
    ∃ all, s.graph.selectVertices [] = .ok all ∧
      (all.filter (s.graph.hasLabel [user])).filter
          (s.graph.has (.token .id) (.relation .eq (.string text))) =
        [.vertex q.reference] := by
  obtain ⟨vs, hlist, -, hnodup, hmem⟩ := h.wellFormed.vertices_listed
  obtain ⟨-, -, slot, -, hlive⟩ := h.wellFormed.recordOf?_eq_some hq
  have hin : q.reference ∈ vs := (hmem _).mpr ⟨slot, Graph.vertexIn?_of_live hlive⟩
  have hone : (vs.filter fun v =>
      s.graph.has (.token .id) (.relation .eq (.string text)) (.vertex v) &&
        s.graph.hasLabel [user] (.vertex v)) = vs.filter (· == q.reference) := by
    refine List.filter_congr fun v hv => ?_
    obtain ⟨other, hother⟩ := (hmem v).mp hv
    exact h.names hq hlabel hother
  refine ⟨vs.map .vertex, hlist, ?_⟩
  rw [List.filter_filter, List.filter_map]
  simp only [Function.comp_def]
  rw [hone, List.filter_beq, List.count_eq_one_of_mem hnodup hin]
  rfl

/-- Looking up the text of a user reads the record of that user. -/
theorem submit_user (h : Intact s) (hq : s.graph.recordOf? (.text text) = some q)
    (hlabel : q.label = user) :
    s.submit (firstOf (recordSelection (.root
        [.vertices [], .hasLabel [user], .has (.token .id) (.relation .eq (.string text))]))) =
      (.ok [.map q.record], s) := by
  obtain ⟨all, hlist, hfound⟩ := h.found hq hlabel
  obtain ⟨hid, hd, -⟩ := h.wellFormed.recordOf?_eq_some hq
  have hlook : (Eval.look fun g => g.selectVertices []).Yields s all := Eval.Yields.look hlist
  have hlabelled := Step.hasLabel_yields .read [user] all s
  have hnamed := Step.has_yields .read (.token .id) (.relation .eq (.string text))
    (all.filter (s.graph.hasLabel [user])) s
  rw [hfound] at hnamed
  have hstored : s.graph.recordOf? q.id = some q := by rw [hid, hq]
  have hselect := Step.selection_first_yields .read [q] (s := s)
    (List.forall_mem_singleton.mpr ⟨hstored, hd⟩)
  rw [firstOf_recordSelection, List.cons_append, Store.submit_root .read rfl rfl rfl]
  refine hlook.bind ?_
  rw [← List.singleton_append, List.append_assoc, Step.onValues_append rfl]
  refine hlabelled.bind ?_
  rw [Step.onValues_append rfl]
  exact hnamed.bind hselect

end Reading

/-! ## What stays -/

/-- No event changes a record. -/
theorem Effect.keeps {event : Json} {g next : Graph} {outcome : Except DispatchError Json}
    (hw : g.WellFormed) (h : Effect event g outcome next) {id : ElementId} {q : VertexRecord}
    (hq : g.recordOf? id = some q) : next.recordOf? id = some q := by
  cases h with
  | fails e => exact hq
  | reads hevent hname => exact hq
  | @creates i name age text hevent hi hfree =>
      have hne : ElementId.text text ≠ id := by
        intro heq
        have hnone := (hw.recordOf?_eq_none _).mpr hfree
        rw [heq, hq] at hnone
        cases hnone
      have hgains := hw.gains_withVertex (r := newRecord (.text text) name age) hfree
      rw [hgains.others id (Ne.symm hne), hq]
  | follows hevent hi hfollowee hnear hfar => exact hq

/-- What a new user is answered with, and later lookups are. -/
def userObject (id name : String) (age : Option Int64) : Json :=
  .object ⟨[("id", .string id), ("__typename", .string "User"), ("name", .string name),
    ("active", .bool true)] ++ age.toList.map fun n => ("age", .ofInt64 n)⟩

theorem formatted_newRecord (id name : String) (age : Option Int64) :
    (Value.map (newRecord (.text id) name age).record).formatted = userObject id name age := by
  cases age <;> rfl

end Social

namespace Server

variable (maxDepth : Nat) (observed : Bool) {r : Run Store} {event : Json} {i : Invocation}

theorem process_user (h : Social.Intact r.world) (hevent : Invocation.ofEvent event = .ok i)
    (hkey : i.key = ⟨"Query", "user"⟩) {text : String}
    (hid : i.arguments.get? "id" = some (.string text)) {q : VertexRecord}
    (hq : r.world.graph.recordOf? (.text text) = some q) (hlabel : q.label = Social.user) :
    ((dispatcher maxDepth observed).process event r).1 = .ok (Value.map q.record).formatted := by
  have hget : (dispatcher maxDepth observed).registry.get? i.key =
      some Social.singleUser.resolve := by
    rw [hkey]
    rfl
  obtain ⟨start, hstart, houtcome, -⟩ := Dispatcher.process_resolved rfl hevent hget r
  have hargument := (Social.textArgument_eq_ok i "id" text).mpr hid
  have hnarrowed : Social.singleUser.narrowed i r.world.ids.next.1 =
      .ok (.root [.vertices [], .hasLabel [Social.user],
        .has (.token .id) (.relation .eq (.string text))]) := by
    unfold SinglePipeline.narrowed Social.singleUser Social.userById
    simp only [hargument]
    rfl
  have hanswer := SinglePipeline.resolve_answers (p := Social.singleUser) (r := start) hnarrowed
    (by rw [hstart]; exact Social.submit_user h.draw hq hlabel)
  rw [houtcome, hanswer]
  rfl

theorem serve_keeps_record (h : Social.Intact r.world) {id : ElementId} {q : VertexRecord}
    (hq : r.world.graph.recordOf? id = some q) (payloads : List Json) :
    Social.Intact (serve (dispatcher maxDepth observed) payloads r).world ∧
      (serve (dispatcher maxDepth observed) payloads r).world.graph.recordOf? id = some q :=
  serve_keeps (P := fun r => Social.Intact r.world ∧ r.world.graph.recordOf? id = some q)
    (fun event _ hr =>
      have heffect := Social.process_effect maxDepth observed hr.1 event
      ⟨heffect.2, heffect.1.keeps hr.1.wellFormed hr.2⟩)
    payloads ⟨h, hq⟩

/-- A user that was created is the only change, and reads as it was answered ever after. -/
theorem created_user_persists (h : Reachable maxDepth observed r)
    (hevent : Invocation.ofEvent event = .ok i) (hkey : i.key = ⟨"Mutation", "createUser"⟩)
    {answer : Json} (hdone : ((dispatcher maxDepth observed).process event r).1 = .ok answer) :
    ∃ id name age, Social.Creates i name age ∧ answer = Social.userObject id name age ∧
      r.world.graph.Gains (Social.newRecord (.text id) name age)
        ((dispatcher maxDepth observed).process event r).2.world.graph ∧
      ∀ payloads query q, Invocation.ofEvent query = .ok q → q.key = ⟨"Query", "user"⟩ →
        q.arguments.get? "id" = some (.string id) →
        ((dispatcher maxDepth observed).process query
          (serve (dispatcher maxDepth observed) payloads
            ((dispatcher maxDepth observed).process event r).2)).1 = .ok answer := by
  by_cases hcreates : ∃ name age, Social.Creates i name age
  · obtain ⟨name, age, hi⟩ := hcreates
    obtain ⟨houtcome, hworld, hintact⟩ :=
      Social.process_creates maxDepth observed h.intact hevent hi
    let id := r.world.ids.issue r.world.ids.position
    have hanswer : answer = (Value.map (Social.newRecord (.text id) name age).record).formatted :=
      Except.ok.inj (hdone.symm.trans houtcome)
    have hfree : r.world.graph.vertexIndex.contains (.text id) = false :=
      h.intact.unused (Nat.le_refl _)
    have hgains := h.intact.wellFormed.gains_withVertex
      (r := Social.newRecord (.text id) name age) hfree
    have hstored : ((dispatcher maxDepth observed).process event r).2.world.graph.recordOf?
        (.text id) = some (Social.newRecord (.text id) name age) := by
      rw [hworld]
      exact hgains.present
    refine ⟨id, name, age, hi, ?_, ?_, fun payloads query q hquery hname hid => ?_⟩
    · rw [hanswer, Social.formatted_newRecord]
    · rw [hworld]
      exact hgains
    · obtain ⟨hlater, hread⟩ := serve_keeps_record maxDepth observed hintact hstored payloads
      rw [process_user maxDepth observed hlater hquery hname hid hread rfl, hanswer]
  · have hrefused : Social.Refused maxDepth observed event r :=
      Social.create_refused hevent hkey fun name age hi => hcreates ⟨name, age, hi⟩
    exact absurd hdone (hrefused.no_answer answer)

/-- The request for a user with an age, as an event and as an invocation. -/
def maxRequest : Json :=
  Dispatcher.eventFor "Mutation" "createUser" [("name", .string "Max"), ("age", .ofInt64 30)]

def maxInvocation : Invocation :=
  ⟨"Mutation", "createUser", .ofList [("name", .string "Max"), ("age", .ofInt64 30)], none, none⟩

def userRequest (id : String) : Json :=
  Dispatcher.eventFor "Query" "user" [("id", .string id)]

theorem created_user_persists_max :
    Reachable 8 true grown ∧ Invocation.ofEvent maxRequest = .ok maxInvocation ∧
      ∃ id, ((dispatcher 8 true).process maxRequest grown).1 =
          .ok (Social.userObject id "Max" (some 30)) ∧
        ((dispatcher 8 true).process (userRequest id)
          (serve (dispatcher 8 true) [followRequest "u1" "u2", Dispatcher.creation "Zoe"]
            ((dispatcher 8 true).process maxRequest grown).2)).1 =
          .ok (Social.userObject id "Max" (some 30)) := by
  have hevent : Invocation.ofEvent maxRequest = .ok maxInvocation := rfl
  refine ⟨grown_reachable, hevent, ?_⟩
  have hok : ((dispatcher 8 true).process maxRequest grown).1.isOk = true := by decide +kernel
  cases hdone : ((dispatcher 8 true).process maxRequest grown).1 with
  | error e =>
      rw [hdone] at hok
      cases hok
  | ok answer =>
      obtain ⟨id, name, age, hi, rfl, -, hread⟩ :=
        created_user_persists 8 true grown_reachable hevent rfl hdone
      have hname : name = "Max" := (Json.string.inj (Option.some.inj hi.name)).symm
      have hage : age = some 30 := by
        cases age with
        | none =>
            rcases hi.age with hnone | hnull
            · cases hnone
            · cases hnull
        | some n =>
            have hsame : Json.ofInt64 30 = .ofInt64 n := Option.some.inj hi.age
            rw [Int64.toInt_inj.mp (Json.int.inj hsame)]
      rw [hname, hage] at hread ⊢
      exact ⟨id, rfl, hread _ (userRequest id) _ rfl rfl rfl⟩

end Server

end GraphGateway
