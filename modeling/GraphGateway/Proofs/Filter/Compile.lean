import GraphGateway.Social.Schema
import GraphGateway.Proofs.Except
import GraphGateway.Proofs.Evaluation.Reachable
import GraphGateway.Proofs.Filter.Fields
import GraphGateway.Proofs.Filter.Meaning

/-!
# Compiled filters

The steps that a filter input is compiled to keep exactly the vertices that
satisfy the input, in their order and as often as they came. Scalar fields are
compiled before the others, which changes nothing, since every fragment only
narrows what the fragments before it left.
-/

namespace GraphGateway

open Classical in
/-- The vertices with a property, in order and with repetitions. -/
noncomputable def keeping (P : ElementId → Prop) (vs : List Vertex) : List Vertex :=
  vs.filter fun v => P v.id

section Keeping

variable {P Q : ElementId → Prop}

theorem keeping_eq_filter {test : Vertex → Bool} (h : ∀ v, test v = true ↔ P v.id)
    (vs : List Vertex) : keeping P vs = vs.filter test := by
  classical
  unfold keeping
  refine List.filter_congr fun v _ => ?_
  rw [Bool.eq_iff_iff, decide_eq_true_iff, h]

theorem keeping_congr {vs : List Vertex} (h : ∀ v ∈ vs, P v.id ↔ Q v.id) :
    keeping P vs = keeping Q vs := by
  classical
  exact List.filter_congr fun v hv => decide_eq_decide.mpr (h v hv)

theorem keeping_true (vs : List Vertex) : keeping (fun _ => True) vs = vs := by
  have htest : ∀ v : Vertex, true = true ↔ (fun _ : ElementId => True) v.id := fun v => by simp
  rw [keeping_eq_filter htest, List.filter_true]

theorem keeping_keeping (vs : List Vertex) :
    keeping Q (keeping P vs) = keeping (fun id => P id ∧ Q id) vs := by
  classical
  unfold keeping
  rw [List.filter_filter]
  refine List.filter_congr fun v _ => ?_
  rw [Bool.decide_and, Bool.and_comm]

theorem isEmpty_keeping (vs : List Vertex) :
    (keeping P vs).isEmpty = false ↔ ∃ v ∈ vs, P v.id := by
  simp [keeping]

end Keeping

/-- Steps that write nothing and keep the vertices with a property. -/
structure Narrows (s : Store) (steps : List Step) (P : ElementId → Prop) : Prop where
  reads_only : Step.anyMutation steps = false
  no_modulator : ∀ step ∈ steps, step.isModulator = false
  keeps : ∀ vs : List Vertex,
    (Step.onValues .read steps (vs.map .vertex)).Yields s ((keeping P vs).map .vertex)

namespace Narrows

variable {s : Store} {P Q : ElementId → Prop} {steps : List Step}

theorem standsAlone (h : Narrows s steps P) : Step.standsAlone steps = true := by
  cases steps with
  | nil => rfl
  | cons step rest => simp [Step.standsAlone, h.no_modulator step List.mem_cons_self]

theorem congr (h : Narrows s steps P) (hPQ : ∀ id, P id ↔ Q id) : Narrows s steps Q := by
  have heq : P = Q := funext fun id => propext (hPQ id)
  exact heq ▸ h

theorem nil : Narrows s [] fun _ => True := by
  refine ⟨rfl, by simp, fun vs => ?_⟩
  rw [keeping_true]
  exact Eval.Yields.pure _

theorem append {more : List Step} (h : Narrows s steps P) (hmore : Narrows s more Q) :
    Narrows s (steps ++ more) fun id => P id ∧ Q id := by
  refine ⟨?_, ?_, fun vs => ?_⟩
  · rw [Step.anyMutation_append, h.reads_only, hmore.reads_only]
    rfl
  · intro step hm
    rcases List.mem_append.mp hm with hm | hm
    · exact h.no_modulator step hm
    · exact hmore.no_modulator step hm
  · rw [Step.onValues_append hmore.standsAlone, ← keeping_keeping]
    exact (h.keeps vs).bind (hmore.keeps _)

/-- A single step narrows if it keeps those values of which a test holds. -/
private theorem of_filter (step : Step) (test : Graph → Value → Bool)
    (hread : Step.anyMutation [step] = false) (hstep : step.isModulator = false)
    (happly : ∀ input, Stage.applyTo .read ⟨step, step.childRoutine .read⟩ [] input =
      Eval.look fun g => .ok (input.filter (test g)))
    (htest : ∀ v : Vertex, test s.graph (.vertex v) = true ↔ P v.id) : Narrows s [step] P := by
  refine ⟨hread, by simpa using hstep, fun vs => ?_⟩
  rw [Step.onValues_singleton hstep, happly, keeping_eq_filter htest]
  refine Eval.Yields.look ?_
  rw [List.filter_map]
  rfl

theorem hasLabel (label : String) :
    Narrows s [.hasLabel [label]] fun id => ∃ r, s.graph.recordOf? id = some r ∧ r.label = label :=
  of_filter _ (fun g => g.hasLabel [label]) rfl rfl (fun _ => rfl) (s.graph.hasLabel_vertex label)

theorem has (f : Filter.ScalarFilter) (p : Predicate) :
    Narrows s [.has f.key p] fun id =>
      ∃ r v, s.graph.recordOf? id = some r ∧ f.subject? r = some v ∧ p.accepts v = true :=
  of_filter _ (fun g => g.has f.key p) rfl rfl (fun _ => rfl) (s.graph.has_vertex f p)

private theorem hop_keeps (hw : s.graph.WellFormed) (h : Narrows s steps P) (direction : Direction)
    (label : String) (v : Vertex) :
    (Step.onValues .read (.hop direction [label] :: steps) [.vertex v]).Yields s
      ((keeping P (s.graph.around direction [label] v)).map .vertex) := by
  rw [Step.onValues_cons rfl h.standsAlone]
  refine Eval.Yields.bind ?_ (h.keeps _)
  have hwalk := Eval.Yields.collect_map (s := s) (g := Value.vertex)
    (f := fun x => Eval.look fun g => g.hop direction [label] x) [v]
    fun w _ => Eval.Yields.look (hw.hop direction [label] w)
  rw [List.flatMap_singleton] at hwalk
  exact hwalk

/-- Vertices of which some neighbour is left over by the steps of a child. -/
theorem suchThat (hw : s.graph.WellFormed) (h : Narrows s steps P) (direction : Direction)
    (label : String) :
    Narrows s [.suchThat (.anonymous (.hop direction [label] :: steps))] fun id =>
      ∃ other, s.graph.Adjacent direction label id other ∧ P other := by
  have hmutating : Step.anyMutation [.suchThat (.anonymous (.hop direction [label] :: steps))] =
      false := by
    simp [Step.anyMutation, Step.isMutation, Traversal.isMutating, Traversal.anonymous,
      h.reads_only]
  refine ⟨hmutating, by simp [Step.isModulator], fun vs => ?_⟩
  rw [Step.onValues_singleton rfl]
  let found (v : Vertex) : List Vertex := keeping P (s.graph.around direction [label] v)
  have htest : ∀ v, (!(found v).isEmpty) = true ↔
      ∃ other, s.graph.Adjacent direction label v.id other ∧ P other := by
    intro v
    rw [Bool.not_eq_true', isEmpty_keeping, Graph.exists_around hw]
  have hone : ∀ v : Vertex, Eval.Yields
      (Step.onValues .read (.hop direction [label] :: steps) [.vertex v] >>= fun results =>
        pure (if results.isEmpty then [] else [Value.vertex v]))
      s (if (found v).isEmpty then [] else [.vertex v]) := by
    intro v
    have hchild := hop_keeps hw h direction label v
    refine hchild.bind ?_
    rw [List.isEmpty_map]
    exact Eval.Yields.pure _
  have hall := Eval.Yields.collect_map (f := fun x =>
    Step.onValues .read (.hop direction [label] :: steps) [x] >>= fun results =>
      pure (if results.isEmpty then [] else [x])) vs fun v _ => hone v
  have hflat : vs.flatMap (fun v => if (found v).isEmpty then [] else [Value.vertex v]) =
      (vs.filter fun v => !(found v).isEmpty).map Value.vertex := by
    clear hall
    induction vs with
    | nil => rfl
    | cons v rest ih =>
        rw [List.flatMap_cons, ih, List.filter_cons]
        cases (found v).isEmpty <;> rfl
  rw [hflat] at hall
  rw [keeping_eq_filter htest]
  exact hall

/-- On a traversal that yields vertices, steps that narrow leave those with the property. -/
theorem submit_extend (h : Narrows s steps P) (hw : s.graph.WellFormed) {t : Traversal}
    (hne : t.steps ≠ []) (hread : t.isMutating = false) {vs : List Vertex}
    (hrun : (s.submit t).1 = .ok (vs.map .vertex)) :
    s.submit (t.extend steps) = (.ok ((keeping P vs).map .vertex), s) :=
  Store.submit_extend_yields hw hne hread hrun h.standsAlone h.reads_only (h.keeps vs)

end Narrows

namespace Filter

variable {s : Store}

/-! ## Scalar fields -/

theorem ScalarFilter.passes_iff (f : ScalarFilter) (g : Graph) (id : ElementId) (name : String)
    {wanted : Json} (h : wanted.isNull = false) :
    f.Passes g id (name, wanted) ↔
      ∃ op p r v, f.operator name = .ok op ∧ f.predicate name op wanted = .ok p ∧
        g.recordOf? id = some r ∧ f.subject? r = some v ∧ p.accepts v = true := by
  cases wanted with
  | null => cases h
  | _ => rfl

theorem ScalarFilter.compile_narrows (f : ScalarFilter) {entries : List (String × Json)}
    {steps : List Step} (h : f.compile entries = .ok steps) :
    Narrows s steps fun id => ∀ operator ∈ entries, f.Passes s.graph id operator := by
  induction entries generalizing steps with
  | nil =>
      cases h
      exact Narrows.nil.congr fun id => by simp
  | cons head rest ih =>
      obtain ⟨name, wanted⟩ := head
      unfold ScalarFilter.compile at h
      obtain ⟨op, hop, h⟩ := Except.bind_eq_ok.mp h
      split at h
      next hnull =>
          have hwanted : wanted = .null := Json.eq_null_of_isNull hnull
          refine (ih h).congr fun id => ?_
          rw [List.forall_mem_cons, hwanted]
          exact ⟨fun hrest => ⟨trivial, hrest⟩, fun hboth => hboth.2⟩
      next hvalue =>
          obtain ⟨p, hp, h⟩ := Except.bind_eq_ok.mp h
          obtain ⟨more, hmore, h⟩ := Except.bind_eq_ok.mp h
          cases h
          refine ((Narrows.has f p).append (ih hmore)).congr fun id => ?_
          rw [List.forall_mem_cons, f.passes_iff _ _ _ (by simpa using hvalue)]
          refine and_congr_left fun _ => ⟨fun ⟨r, v, hr⟩ => ⟨op, p, r, v, hop, hp, hr⟩, ?_⟩
          -- the operator and its predicate are functions of the entry
          intro hfound
          rcases hfound with ⟨op', p', r, v, hop', hp', hr⟩
          have hsame : op' = op := Except.ok.inj (hop'.symm.trans hop)
          subst hsame
          have hsame : p' = p := Except.ok.inj (hp'.symm.trans hp)
          subst hsame
          exact ⟨r, v, hr⟩

/-- A single operator is compiled to a single test. -/
theorem ScalarFilter.compile_singleton (f : ScalarFilter) {name : String} {op : Operator}
    {wanted : Json} {p : Predicate} (hop : f.operator name = .ok op)
    (hnull : wanted.isNull = false) (hp : op.build wanted f.kind.coerce = .ok p) :
    f.compile [(name, wanted)] = .ok [.has f.key p] := by
  have hpredicate : f.predicate name op wanted = .ok p := Except.mapError_eq_ok.mpr hp
  have hnone : f.compile [] = .ok [] := rfl
  rw [ScalarFilter.compile, hop, Except.ok_bind, hnull, if_neg Bool.false_ne_true, hpredicate,
    Except.ok_bind, hnone, Except.ok_bind]

/-! ## Fields of a vertex filter -/

theorem compileBinding_narrows (hw : s.graph.WellFormed) (schema : Schema) {descend : Descent}
    (hdescend : ∀ target nested steps, descend target nested = .ok steps →
      Narrows s steps fun id => schema.Accepts s.graph target nested id)
    (b : VertexFilter.Binding) {steps : List Step} (h : compileBinding descend b = .ok steps) :
    Narrows s steps fun id => schema.Meets s.graph b.filter b.value id := by
  obtain ⟨field, bound, value⟩ := b
  cases value with
  | object input =>
      cases bound with
      | scalar f => exact (f.compile_narrows h).congr fun id => Iff.rfl
      | vertex target => exact (hdescend target input steps h).congr fun id => Iff.rfl
      | relationship direction label target =>
          obtain ⟨nested, hnested, hsteps⟩ := Except.bind_eq_ok.mp h
          cases hsteps
          have hwhere := (hdescend target input nested hnested).suchThat hw direction label
          refine hwhere.congr fun id => ?_
          constructor
          · intro hfound
            rcases hfound with ⟨other, hadj, f, hf, hsat⟩
            exact ⟨f, hf, other, hadj, hsat⟩
          · intro hfound
            rcases hfound with ⟨f, hf, other, hadj, hsat⟩
            exact ⟨other, hadj, f, hf, hsat⟩
  | _ => cases h

theorem compileBindings_narrows (hw : s.graph.WellFormed) (schema : Schema) {descend : Descent}
    (hdescend : ∀ target nested steps, descend target nested = .ok steps →
      Narrows s steps fun id => schema.Accepts s.graph target nested id)
    (bindings : List VertexFilter.Binding) {steps : List Step}
    (h : compileBindings descend bindings = .ok steps) :
    Narrows s steps fun id => ∀ b ∈ bindings, schema.Meets s.graph b.filter b.value id := by
  induction bindings generalizing steps with
  | nil =>
      cases h
      exact Narrows.nil.congr fun id => by simp
  | cons b rest ih =>
      obtain ⟨first, hfirst, h⟩ := Except.bind_eq_ok.mp h
      obtain ⟨others, hothers, h⟩ := Except.bind_eq_ok.mp h
      cases h
      have hb := compileBinding_narrows hw schema hdescend b hfirst
      refine (hb.append (ih hothers)).congr fun id => ?_
      rw [List.forall_mem_cons]

/-- The bindings of an input ask for what its fields ask for. -/
theorem VertexFilter.resolve_meets (f : VertexFilter) (schema : Schema) (g : Graph)
    (id : ElementId) {entries : List (String × Json)} {bindings : List Binding}
    (h : f.resolve entries = .ok bindings) :
    (∀ entry ∈ entries, ∃ bound, f.find? entry.1 = some bound ∧
      schema.Meets g bound entry.2 id) ↔
      ∀ b ∈ bindings, schema.Meets g b.filter b.value id := by
  have hresolved : (∃ others, f.resolve entries = .ok others ∧
      ∀ b ∈ others, schema.Meets g b.filter b.value id) ↔
        ∀ b ∈ bindings, schema.Meets g b.filter b.value id := by simp [h]
  rw [← hresolved, f.resolve_forall fun b => schema.Meets g b.filter b.value id]
  refine forall₂_congr fun entry _ => exists_congr fun bound => and_congr_right fun _ => ?_
  cases hnull : entry.2.isNull with
  | true => simp [Json.eq_null_of_isNull hnull, Schema.Meets]
  | false => simp

theorem VertexFilter.compile_narrows (hw : s.graph.WellFormed) (schema : Schema)
    {descend : Descent}
    (hdescend : ∀ target nested steps, descend target nested = .ok steps →
      Narrows s steps fun id => schema.Accepts s.graph target nested id)
    (f : VertexFilter) {input : Fields} {steps : List Step}
    (h : f.compile descend input = .ok steps) :
    Narrows s steps fun id => schema.Satisfies s.graph f input.entries id := by
  obtain ⟨bindings, hbindings, h⟩ := Except.bind_eq_ok.mp h
  obtain ⟨nested, hnested, h⟩ := Except.bind_eq_ok.mp h
  cases h
  have hfields := compileBindings_narrows hw schema hdescend _ hnested
  refine ((Narrows.hasLabel f.label).append hfields).congr fun id => ?_
  rw [schema.satisfies_iff, f.resolve_meets schema s.graph id hbindings]
  simp only [mem_scalarsFirst]

/-! ## Schemas -/

theorem Schema.get_eq_ok (schema : Schema) {name : String} {f : VertexFilter}
    (h : schema.get name = .ok f) : schema.filters.get? name = some f := by
  unfold Schema.get at h
  split at h
  next found hfound =>
      cases h
      exact hfound
  · cases h

theorem Schema.compileAt_narrows (hw : s.graph.WellFormed) (schema : Schema) (remaining : Nat)
    (f : VertexFilter) {input : Fields} {steps : List Step}
    (h : schema.compileAt remaining f input = .ok steps) :
    Narrows s steps fun id => schema.Satisfies s.graph f input.entries id := by
  -- on the levels that are left; what a filter does on its own level never depends on them
  induction remaining generalizing f input steps with
  | zero => exact f.compile_narrows hw schema (fun _ _ _ hnested => by cases hnested) h
  | succ remaining ih =>
      refine f.compile_narrows hw schema (fun target nested more hmore => ?_) h
      obtain ⟨other, hother, hmore⟩ := Except.bind_eq_ok.mp hmore
      have hget : schema.filters.get? target = some other := schema.get_eq_ok hother
      refine (ih other hmore).congr fun id => ?_
      simp [Schema.Accepts, hget]

theorem Schema.compile_narrows (hw : s.graph.WellFormed) (schema : Schema) {name : String}
    {input : Fields} {steps : List Step} (h : schema.compile name input = .ok steps) :
    Narrows s steps fun id => schema.Accepts s.graph name input id := by
  obtain ⟨f, hf, h⟩ := Except.bind_eq_ok.mp h
  have hget : schema.filters.get? name = some f := schema.get_eq_ok hf
  refine (schema.compileAt_narrows hw _ f h).congr fun id => ?_
  simp [Schema.Accepts, hget]

/-- On a traversal that yields vertices, filtering keeps exactly those that satisfy the input. -/
theorem Schema.apply_keeps_accepted (schema : Schema) (hs : s.Reachable) {name : String}
    {t filtered : Traversal} {input : Fields} (happly : schema.apply name t input = .ok filtered)
    (hne : t.steps ≠ []) (hread : t.isMutating = false) {vs : List Vertex}
    (hrun : (s.submit t).1 = .ok (vs.map .vertex)) :
    s.submit filtered =
      (.ok ((keeping (fun id => schema.Accepts s.graph name input id) vs).map .vertex), s) := by
  have hw : s.graph.WellFormed := hs.sound.graph_wellFormed
  obtain ⟨steps, hsteps, rfl⟩ := Except.map_eq_ok.mp happly
  have hnarrows := schema.compile_narrows hw hsteps
  exact Store.submit_extend_yields hw hne hread hrun hnarrows.standsAlone
    hnarrows.reads_only (hnarrows.keeps vs)

def followersOf (name : String) : Fields :=
  .ofList [("following", .ofFields [("name", .ofFields [("eq", .string name)])])]

theorem Schema.apply_keeps_follower :
    Schema.build [Social.userFilter, Social.postFilter] 8 = .ok (Social.filters 8) ∧
      keeping
        (fun id =>
          (Social.filters 8).Accepts Store.follower.graph Social.user (followersOf "Bob") id)
        [⟨.text "u1", Social.user⟩, ⟨.text "u2", Social.user⟩] = [⟨.text "u1", Social.user⟩] := by
  refine ⟨Social.build_filters 8, ?_⟩
  have hreachable : Store.follower.Reachable := Store.follower_reachable
  have husers : (Store.follower.submit (.root [.vertices []])).1 =
      .ok ([⟨.text "u1", Social.user⟩, ⟨.text "u2", Social.user⟩].map Value.vertex) := rfl
  obtain ⟨filtered, happly, hrun⟩ : ∃ filtered,
      (Social.filters 8).apply Social.user (.root [.vertices []]) (followersOf "Bob") =
          .ok filtered ∧
        (Store.follower.submit filtered).1 = .ok [.vertex ⟨.text "u1", Social.user⟩] :=
    ⟨_, rfl, rfl⟩
  have hkept := Schema.apply_keeps_accepted (Social.filters 8) hreachable happly
    (List.cons_ne_nil _ _) rfl husers
  rw [hkept] at hrun
  exact List.map_injective_iff.mpr (fun _ _ h => Value.vertex.inj h) (Except.ok.inj hrun)

end Filter

end GraphGateway
