import GraphGateway.Proofs.Evaluation.Tests
import GraphGateway.Proofs.Filter.Acceptance
import GraphGateway.Proofs.Filter.Reordering

/-!
# The order of fields

Inputs that are equal up to the order of fields are accepted together, and
filtering by one leaves what filtering by the other leaves, in the same order.
-/

namespace GraphGateway

namespace Filter

variable {levels : Nat} {v w : Json}

/-! ## Comparison values -/

/-- Objects and arrays are values of no kind, whatever their order. -/
theorem Kind.coerce_reordered (kind : Kind) (h : Json.Reordered levels v w) :
    (kind.coerce v).toOption = (kind.coerce w).toOption := by
  cases h.layer with
  | same => rfl
  | array _ => cases kind <;> rfl
  | object _ => cases kind <;> rfl

theorem coerceEach_toOption {coerce : Json → Except Misfit Value} {items others : List Json}
    (h : List.Forall₂ (fun v w => (coerce v).toOption = (coerce w).toOption) items others) :
    (coerceEach coerce items).toOption = (coerceEach coerce others).toOption := by
  induction h with
  | nil => rfl
  | @cons v w items others hvw _ ih =>
      rw [coerceEach, coerceEach]
      revert hvw
      cases coerce v <;> cases coerce w <;> intro hvw
      · rfl
      · cases hvw
      · cases hvw
      · cases hvw
        rw [Except.toOption_map, Except.toOption_map, ih]

theorem Operator.build_reordered (op : Operator) (kind : Kind) (h : Json.Reordered levels v w) :
    (op.build v kind.coerce).toOption = (op.build w kind.coerce).toOption := by
  have hvalue := kind.coerce_reordered h
  cases h.layer with
  | same => rfl
  | object _ =>
      cases op with
      | relation r => simp only [build, Except.toOption_map, hvalue]
      | _ => rfl
  | array hitems =>
      have hmembers := coerceEach_toOption (hitems.imp fun v w => kind.coerce_reordered)
      cases op with
      | relation r => simp only [build, Except.toOption_map, hvalue]
      | member =>
          have hall := congrArg (Option.map Predicate.within) hmembers
          rwa [← Except.toOption_map, ← Except.toOption_map] at hall
      | notMember =>
          have hall := congrArg (Option.map Predicate.without) hmembers
          rwa [← Except.toOption_map, ← Except.toOption_map] at hall
      | text negated place => rfl

/-! ## Scalar fields -/

namespace ScalarFilter

theorem predicate_reordered (f : ScalarFilter) (name : String) (op : Operator)
    (h : Json.Reordered levels v w) :
    (f.predicate name op v).toOption = (f.predicate name op w).toOption := by
  unfold predicate
  rw [Except.toOption_mapError, Except.toOption_mapError, op.build_reordered f.kind h]

theorem compile_isOk_reordered (f : ScalarFilter) {a b : List (String × Json)}
    (h : Rearranged (Json.Reordered levels) a b) :
    (f.compile a).isOk = true ↔ (f.compile b).isOk = true := by
  rw [compile_eq, compile_eq, compileEach_isOk, compileEach_isOk]
  refine h.forall_iff fun name v w hvw => ?_
  rw [operatorSteps_isOk_congr f.key f.operator hvw.isNull_eq fun op => ?_]
  rw [Except.isOk_eq_isSome, Except.isOk_eq_isSome, f.predicate_reordered name op hvw]

theorem passes_reordered (f : ScalarFilter) (g : Graph) (id : ElementId) (name : String)
    (h : Json.Reordered levels v w) : f.Passes g id (name, v) ↔ f.Passes g id (name, w) := by
  cases hnull : v.isNull with
  | true =>
      have hv : v = .null := Json.eq_null_of_isNull hnull
      have hw : w = .null := Json.eq_null_of_isNull (h.isNull_eq ▸ hnull)
      rw [hv, hw]
  | false =>
      have hw : w.isNull = false := h.isNull_eq ▸ hnull
      simp only [f.passes_iff g id name hnull, f.passes_iff g id name hw,
        ← Except.toOption_eq_some (x := f.predicate _ _ _), f.predicate_reordered name _ h]

end ScalarFilter

/-! ## Accepted inputs -/

/-- Nested inputs that are rearrangements of each other are accepted together. -/
def Descent.Indifferent (descend : Descent) : Prop :=
  ∀ target levels (a b : Fields), Rearranged (Json.Reordered levels) a.entries b.entries →
    ((descend target a).isOk = true ↔ (descend target b).isOk = true)

theorem compileBinding_isOk_reordered {descend : Descent} (hd : descend.Indifferent)
    (field : String) (bound : FieldFilter) (h : Json.Reordered levels v w) :
    (compileBinding descend ⟨field, bound, v⟩).isOk = true ↔
      (compileBinding descend ⟨field, bound, w⟩).isOk = true := by
  cases h.layer with
  | same => rfl
  | array _ => exact Iff.rfl
  | @object a b hfields =>
      cases bound with
      | scalar f => exact f.compile_isOk_reordered hfields
      | vertex target => exact hd target _ a b hfields
      | relationship direction label target =>
          have hnested := hd target _ a b hfields
          simp only [compileBinding]
          revert hnested
          cases descend target a <;> cases descend target b <;> exact fun hnested => hnested

theorem VertexFilter.compile_isOk_reordered {descend : Descent} (hd : descend.Indifferent)
    (f : VertexFilter) {a b : Fields}
    (h : Rearranged (Json.Reordered levels) a.entries b.entries) :
    (f.compile descend a).isOk = true ↔ (f.compile descend b).isOk = true := by
  rw [compile_isOk, compile_isOk]
  refine h.forall_iff fun field v w hvw => exists_congr fun bound => and_congr_right fun _ => ?_
  rw [hvw.isNull_eq, compileBinding_isOk_reordered hd field bound hvw]

namespace Schema

theorem compileAt_isOk_reordered (schema : Schema) (remaining : Nat) (f : VertexFilter)
    {a b : Fields} (h : Rearranged (Json.Reordered levels) a.entries b.entries) :
    (schema.compileAt remaining f a).isOk = true ↔
      (schema.compileAt remaining f b).isOk = true := by
  -- on the levels that are left; every one of them may be rearranged to another depth
  induction remaining generalizing f levels a b with
  | zero => exact f.compile_isOk_reordered (fun _ _ _ _ _ => Iff.rfl) h
  | succ remaining ih =>
      refine f.compile_isOk_reordered (fun target levels a b hnested => ?_) h
      cases schema.get target with
      | error e => exact Iff.rfl
      | ok g => exact ih g hnested

theorem apply_isOk_reordered (schema : Schema) (name : String) (t : Traversal) {a b : Fields}
    (h : Rearranged (Json.Reordered levels) a.entries b.entries) :
    (schema.apply name t a).isOk = true ↔ (schema.apply name t b).isOk = true := by
  unfold apply compile
  cases schema.get name with
  | error e => exact Iff.rfl
  | ok f =>
      have hat := schema.compileAt_isOk_reordered schema.maxDepth f h
      simp only [Except.ok_bind]
      revert hat
      cases schema.compileAt schema.maxDepth f a <;> cases schema.compileAt schema.maxDepth f b <;>
        exact fun hat => hat

/-! ## Meaning -/

theorem satisfies_reordered (schema : Schema) (g : Graph) (f : VertexFilter)
    {a b : List (String × Json)} (id : ElementId)
    (hmeets : ∀ bound v w, Json.Reordered levels v w →
      (schema.Meets g bound v id ↔ schema.Meets g bound w id))
    (h : Rearranged (Json.Reordered levels) a b) :
    schema.Satisfies g f a id ↔ schema.Satisfies g f b id := by
  rw [satisfies_iff, satisfies_iff]
  refine and_congr_right fun _ => h.forall_iff fun field v w hvw => ?_
  exact exists_congr fun bound => and_congr_right fun _ => hmeets bound v w hvw

theorem meets_reordered (schema : Schema) (g : Graph) (bound : FieldFilter) (id : ElementId)
    (h : Json.Reordered levels v w) : schema.Meets g bound v id ↔ schema.Meets g bound w id := by
  -- on the levels that may differ, since what is nested in a value may differ in one fewer
  induction levels generalizing bound v w id with
  | zero => exact (show v = w from h) ▸ Iff.rfl
  | succ levels ih =>
      cases h with
      | same => rfl
      | array _ => exact Iff.rfl
      | @object a b hfields =>
          have hsatisfies : ∀ (f : VertexFilter) other,
              schema.Satisfies g f a.entries other ↔ schema.Satisfies g f b.entries other :=
            fun f other => schema.satisfies_reordered g f other
              (fun bound v w hvw => ih bound other hvw) hfields
          cases bound with
          | scalar f =>
              exact hfields.forall_iff fun name v w hvw => f.passes_reordered g id name hvw
          | vertex target =>
              exact exists_congr fun f => and_congr_right fun _ => hsatisfies f id
          | relationship direction label target =>
              refine exists_congr fun f => and_congr_right fun _ => exists_congr fun other => ?_
              exact and_congr_right fun _ => hsatisfies f other

theorem accepts_reordered (schema : Schema) (g : Graph) (name : String) {a b : Fields}
    (id : ElementId) (h : Rearranged (Json.Reordered levels) a.entries b.entries) :
    schema.Accepts g name a id ↔ schema.Accepts g name b id :=
  exists_congr fun f => and_congr_right fun _ =>
    schema.satisfies_reordered g f id (fun bound _ _ hvw => schema.meets_reordered g bound id hvw) h

theorem submit_reordered (schema : Schema) {name : String} {a b : Fields}
    (h : Rearranged (Json.Reordered levels) a.entries b.entries) {s : Store} (hs : s.Reachable)
    {t : Traversal} (hne : t.steps ≠ []) (hread : t.isMutating = false) {vs : List Vertex}
    (hrun : (s.submit t).1 = .ok (vs.map .vertex)) {fa fb : Traversal}
    (hfa : schema.apply name t a = .ok fa) (hfb : schema.apply name t b = .ok fb) :
    ∃ kept, List.Sublist kept vs ∧ s.submit fa = (.ok (kept.map .vertex), s) ∧
      s.submit fb = (.ok (kept.map .vertex), s) := by
  have hw : s.graph.WellFormed := hs.sound.graph_wellFormed
  have hkeeps : ∀ (input : Fields) (filtered : Traversal),
      schema.apply name t input = .ok filtered → s.submit filtered =
        (.ok ((keeping (fun id => schema.Accepts s.graph name input id) vs).map .vertex), s) := by
    intro input filtered happly
    obtain ⟨steps, hsteps, rfl⟩ := Except.map_eq_ok.mp happly
    exact (schema.compile_narrows hw hsteps).submit_extend hw hne hread hrun
  have hsame : (fun id => schema.Accepts s.graph name b id) =
      fun id => schema.Accepts s.graph name a id :=
    funext fun id => propext (schema.accepts_reordered s.graph name id h).symm
  refine ⟨keeping (fun id => schema.Accepts s.graph name a id) vs, ?_, hkeeps a fa hfa, ?_⟩
  · exact List.filter_sublist
  · rw [hkeeps b fb hfb, hsame]

end Schema

/-! ## Filters without a schema -/

/-- Both are refused, or both are accepted with the same steps in some order. -/
def Compiled.Permuted (first second : Compiled) : Prop :=
  (first.isOk = true ↔ second.isOk = true) ∧ first.stepsOf.Perm second.stepsOf

theorem compileEach_permuted {R : Json → Json → Prop} {f : String × Json → Compiled}
    (hf : ∀ k v w, R v w → (f (k, v)).Permuted (f (k, w))) {a b : List (String × Json)}
    (h : Rearranged R a b) : (compileEach f a).Permuted (compileEach f b) := by
  have hok : (compileEach f a).isOk = true ↔ (compileEach f b).isOk = true := by
    rw [compileEach_isOk, compileEach_isOk]
    exact h.forall_iff fun k v w hvw => (hf k v w hvw).1
  refine ⟨hok, ?_⟩
  cases ha : compileEach f a with
  | error e =>
      cases hb : compileEach f b with
      | error _ => exact .refl []
      | ok sb =>
          rw [ha, hb] at hok
          exact (Bool.false_ne_true (hok.mpr rfl)).elim
  | ok sa =>
      cases hb : compileEach f b with
      | error e =>
          rw [ha, hb] at hok
          exact (Bool.false_ne_true (hok.mp rfl)).elim
      | ok sb =>
          have hsteps : List.Perm (a.flatMap fun x => (f x).stepsOf)
              (b.flatMap fun x => (f x).stepsOf) :=
            h.flatMap_perm fun k v w hvw => (hf k v w hvw).2
          rw [← ((compileEach_eq_ok_iff f a sa).mp ha).2,
            ← ((compileEach_eq_ok_iff f b sb).mp hb).2] at hsteps
          exact hsteps

namespace Untyped

theorem compileOperators_permuted (field : String) {a b : List (String × Json)} (h : a.Perm b) :
    (compileOperators field a).Permuted (compileOperators field b) := by
  have hrearranged : Rearranged Eq a b := .of_perm (fun _ => rfl) h
  rw [compileOperators_eq, compileOperators_eq]
  exact compileEach_permuted (fun k v w hvw => hvw ▸ ⟨Iff.rfl, .refl _⟩) hrearranged

theorem compile_permuted {a b : List (String × Json)} (h : Rearranged (Json.Reordered 1) a b) :
    (compile a).Permuted (compile b) := by
  rw [compile_eq, compile_eq]
  refine compileEach_permuted (fun field v w hvw => ?_) h
  cases hvw with
  | same => exact ⟨Iff.rfl, .refl _⟩
  | array _ => exact ⟨Iff.rfl, .refl _⟩
  | object hfields => exact compileOperators_permuted field hfields.perm

theorem compileOperators_tests (field : String) (entries : List (String × Json)) :
    ∀ step ∈ (compileOperators field entries).stepsOf, step.isTest = true := by
  rw [compileOperators_eq]
  refine compileEach_forall (fun entry step hm => ?_) entries
  obtain ⟨p, rfl⟩ := operatorSteps_has _ _ _ entry step hm
  rfl

theorem compile_tests (entries : List (String × Json)) :
    ∀ step ∈ (compile entries).stepsOf, step.isTest = true := by
  rw [compile_eq]
  refine compileEach_forall (fun entry step hm => ?_) entries
  obtain ⟨field, value⟩ := entry
  cases value with
  | object operators => exact compileOperators_tests field operators.entries step hm
  | _ => cases hm

theorem apply_reordered {a b : Fields} (h : Rearranged (Json.Reordered 1) a.entries b.entries)
    (t : Traversal) :
    ((apply t a).isOk = true ↔ (apply t b).isOk = true) ∧
      ∀ fa fb, apply t a = .ok fa → apply t b = .ok fb →
        (∀ access, fa.routine access = fb.routine access) ∧
          ∀ s : Store, s.submit fa = s.submit fb := by
  obtain ⟨hok, hperm⟩ := compile_permuted h
  refine ⟨by rwa [apply, apply, Except.isOk_map, Except.isOk_map], fun fa fb hfa hfb => ?_⟩
  obtain ⟨sa, hsa, rfl⟩ := Except.map_eq_ok.mp hfa
  obtain ⟨sb, hsb, rfl⟩ := Except.map_eq_ok.mp hfb
  have htests : ∀ step ∈ sa, step.isTest = true := by
    have hall := compile_tests a.entries
    rwa [hsa] at hall
  rw [hsa, hsb] at hperm
  exact ⟨fun access => t.routine_extend_perm htests hperm access,
    fun s => t.submit_extend_perm htests hperm s⟩

end Untyped

/-! ## Both kinds of filters -/

/-- Filtering by an input is filtering by its fields, whatever their order. -/
theorem apply_ignores_order (a b : Fields) :
    (∀ levels, Json.Reordered levels (.object a) (.object b) →
      ∀ (schema : Schema) (name : String) (t : Traversal),
        ((schema.apply name t a).isOk = true ↔ (schema.apply name t b).isOk = true) ∧
        ∀ (s : Store) (vs : List Vertex) (fa fb : Traversal), s.Reachable → t.steps ≠ [] →
          t.isMutating = false → (s.submit t).1 = .ok (vs.map .vertex) →
          schema.apply name t a = .ok fa → schema.apply name t b = .ok fb →
            ∃ kept, List.Sublist kept vs ∧ s.submit fa = (.ok (kept.map .vertex), s) ∧
              s.submit fb = (.ok (kept.map .vertex), s)) ∧
    (Json.Reordered 2 (.object a) (.object b) → ∀ t : Traversal,
      ((Untyped.apply t a).isOk = true ↔ (Untyped.apply t b).isOk = true) ∧
      ∀ fa fb, Untyped.apply t a = .ok fa → Untyped.apply t b = .ok fb →
        (∀ access, fa.routine access = fb.routine access) ∧
          ∀ s : Store, s.submit fa = s.submit fb) := by
  refine ⟨fun levels h schema name t => ?_, fun h t => Untyped.apply_reordered h.entries t⟩
  refine ⟨schema.apply_isOk_reordered name t h.entries, ?_⟩
  intro s vs fa fb hs hne hread hrun hfa hfb
  exact schema.submit_reordered h.entries hs hne hread hrun hfa hfb

def nameTests (name : String) : Json :=
  .ofFields [("eq", .string name), ("ne", .string "Eve")]

def nameTestsReordered (name : String) : Json :=
  .ofFields [("ne", .string "Eve"), ("eq", .string name)]

theorem nameTests_reordered (levels : Nat) (name : String) :
    Json.Reordered (levels + 1) (nameTests name) (nameTestsReordered name) :=
  .object (.swap ⟨rfl, .refl levels _⟩ ⟨rfl, .refl levels _⟩)

def followsBob : Fields :=
  .ofList [("name", nameTests "Ann"),
    ("following", .ofFields [("name", nameTests "Bob"), ("id", .ofFields [("eq", .string "u2")])])]

def followsBobReordered : Fields :=
  .ofList [("following", .ofFields [("id", .ofFields [("eq", .string "u2")]),
      ("name", nameTestsReordered "Bob")]),
    ("name", nameTestsReordered "Ann")]

/-- A test of one property, and nothing about another. -/
def nameAndAge : Fields :=
  .ofList [("name", nameTests "Ann"), ("age", .null)]

def nameAndAgeReordered : Fields :=
  .ofList [("age", .null), ("name", nameTestsReordered "Ann")]

theorem apply_ignores_order_follower :
    (Json.Reordered 3 (.object followsBob) (.object followsBobReordered) ∧
      ∃ fa fb, (Social.filters 8).apply Social.user (.root [.vertices []]) followsBob = .ok fa ∧
        (Social.filters 8).apply Social.user (.root [.vertices []]) followsBobReordered = .ok fb ∧
        Store.follower.submit fa = (.ok [.vertex ⟨.text "u1", Social.user⟩], Store.follower) ∧
        Store.follower.submit fb = (.ok [.vertex ⟨.text "u1", Social.user⟩], Store.follower)) ∧
    Json.Reordered 2 (.object nameAndAge) (.object nameAndAgeReordered) ∧
      ∃ fa fb, Untyped.apply (.root [.addVertex Social.user]) nameAndAge = .ok fa ∧
        Untyped.apply (.root [.addVertex Social.user]) nameAndAgeReordered = .ok fb ∧
        ∀ s : Store, s.submit fa = s.submit fb := by
  have hnested : Json.Reordered 3 (.object followsBob) (.object followsBobReordered) :=
    .object (.swap ⟨rfl, nameTests_reordered 1 "Ann"⟩
      ⟨rfl, .object (.swap ⟨rfl, nameTests_reordered 0 "Bob"⟩ ⟨rfl, .refl 1 _⟩)⟩)
  have hflat : Json.Reordered 2 (.object nameAndAge) (.object nameAndAgeReordered) :=
    .object (.swap ⟨rfl, nameTests_reordered 0 "Ann"⟩ ⟨rfl, .refl 1 _⟩)
  refine ⟨⟨hnested, ?_⟩, hflat, ?_⟩
  · have husers : (Store.follower.submit (.root [.vertices []])).1 =
        .ok ([⟨.text "u1", Social.user⟩, ⟨.text "u2", Social.user⟩].map Value.vertex) := rfl
    obtain ⟨fa, hfa, hrun⟩ : ∃ fa,
        (Social.filters 8).apply Social.user (.root [.vertices []]) followsBob = .ok fa ∧
          (Store.follower.submit fa).1 = .ok [.vertex ⟨.text "u1", Social.user⟩] := ⟨_, rfl, rfl⟩
    obtain ⟨fb, hfb⟩ : ∃ fb,
        (Social.filters 8).apply Social.user (.root [.vertices []]) followsBobReordered =
          .ok fb := ⟨_, rfl⟩
    obtain ⟨kept, -, hkept, hother⟩ := ((apply_ignores_order followsBob followsBobReordered).1 3
      hnested (Social.filters 8) Social.user (.root [.vertices []])).2 Store.follower _ fa fb
      Store.follower_reachable (List.cons_ne_nil _ _) rfl husers hfa hfb
    rw [hkept] at hrun
    rw [Except.ok.inj hrun] at hkept hother
    exact ⟨fa, fb, hfa, hfb, hkept, hother⟩
  · obtain ⟨fa, hfa⟩ : ∃ fa, Untyped.apply (.root [.addVertex Social.user]) nameAndAge =
        .ok fa := ⟨_, rfl⟩
    obtain ⟨fb, hfb⟩ : ∃ fb, Untyped.apply (.root [.addVertex Social.user]) nameAndAgeReordered =
        .ok fb := ⟨_, rfl⟩
    have hsame := ((apply_ignores_order nameAndAge nameAndAgeReordered).2 hflat
      (.root [.addVertex Social.user])).2 fa fb hfa hfb
    exact ⟨fa, fb, hfa, hfb, hsame.2⟩

end Filter

end GraphGateway
