import GraphGateway.Proofs.Evaluation.Tests
import GraphGateway.Proofs.Filter.Acceptance

/-!
# Appended fragments

What the steps look like that a filter appends. The shape is described by recursion
on the nesting of inputs, apart from how inputs are compiled: a label, the tests of
the scalar fields, and one fragment for each other field, where a relationship is a
single condition that walks to the neighbours and goes on with what the target
appends. Such steps only narrow: none of them, and none inside of them, writes or
refines another.
-/

namespace GraphGateway

/-- A step occurs in a list of steps: it is one of them, or it occurs in the child of one. -/
inductive Step.Occurs (step : Step) : List Step → Prop where
  | here {steps : List Step} (h : step ∈ steps) : Occurs step steps
  | condition {steps : List Step} {child : Traversal} (hm : .suchThat child ∈ steps)
      (h : Occurs step child.steps) : Occurs step steps
  | modulator {steps : List Step} {role : Role} {child : Traversal}
      (hm : .modulator role child ∈ steps) (h : Occurs step child.steps) : Occurs step steps

/-- At no depth do steps hold a modulator or one that may write. -/
def Step.ReadsPlainly (steps : List Step) : Prop :=
  ∀ step : Step, step.Occurs steps → step.isModulator = false ∧ step.isMutation = false

namespace Step.ReadsPlainly

variable {steps more : List Step}

theorem append (h : ReadsPlainly steps) (hmore : ReadsPlainly more) :
    ReadsPlainly (steps ++ more) := by
  intro step hoccurs
  have hsplit : step.Occurs steps ∨ step.Occurs more := by
    cases hoccurs with
    | here hm => exact (List.mem_append.mp hm).imp .here .here
    | condition hm hin => exact (List.mem_append.mp hm).imp (.condition · hin) (.condition · hin)
    | modulator hm hin => exact (List.mem_append.mp hm).imp (.modulator · hin) (.modulator · hin)
  exact hsplit.elim (h step) (hmore step)

theorem flatMap {α : Type} {items : List α} {f : α → List Step}
    (h : ∀ a ∈ items, ReadsPlainly (f a)) : ReadsPlainly (items.flatMap f) := by
  induction items with
  | nil =>
      intro step hoccurs
      cases hoccurs with
      | here hm => cases hm
      | condition hm _ => cases hm
      | modulator hm _ => cases hm
  | cons a rest ih =>
      obtain ⟨ha, hrest⟩ := List.forall_mem_cons.mp h
      rw [List.flatMap_cons]
      exact ha.append (ih hrest)

/-- Steps without children read plainly if they do on their own. -/
theorem of_childless (h : ∀ step ∈ steps, step.isModulator = false ∧ step.isMutation = false)
    (hchild : ∀ child, .suchThat child ∉ steps) : ReadsPlainly steps := by
  intro step hoccurs
  cases hoccurs with
  | here hm => exact h step hm
  | condition hm _ => exact (hchild _ hm).elim
  | modulator hm _ =>
      have hno := (h _ hm).1
      cases hno

theorem anyMutation (h : ReadsPlainly steps) : Step.anyMutation steps = false := by
  have hall : ∀ step ∈ steps, step.isMutation = false := fun step hm => (h step (.here hm)).2
  clear h
  induction steps with
  | nil => rfl
  | cons step rest ih =>
      obtain ⟨hstep, hrest⟩ := List.forall_mem_cons.mp hall
      rw [Step.anyMutation, hstep, ih hrest]
      rfl

/-- A condition reads plainly if its child does. -/
theorem suchThat {steps : List Step} (h : ReadsPlainly steps) :
    ReadsPlainly [.suchThat (.anonymous steps)] := by
  intro step hoccurs
  cases hoccurs with
  | here hm =>
      obtain rfl := List.mem_singleton.mp hm
      exact ⟨rfl, h.anyMutation⟩
  | condition hm hin =>
      cases List.mem_singleton.mp hm
      exact h step hin
  | modulator hm _ => cases List.mem_singleton.mp hm

end Step.ReadsPlainly

namespace Filter

/-! ## The shape -/

/-- One test for each operator whose comparison value is not `null`, in their order. -/
def TestsFor (key : Key) (find : String → Except FilterError Operator)
    (predicate : String → Operator → Json → Except FilterError Predicate)
    (operators : List (String × Json)) (steps : List Step) : Prop :=
  List.Forall₂
    (fun entry step => ∃ op p, find entry.1 = .ok op ∧ predicate entry.1 op entry.2 = .ok p ∧
      step = .has key p)
    (operators.filter fun entry => !entry.2.isNull) steps

def ScalarFilter.Appends (f : ScalarFilter) (operators : Fields) (steps : List Step) : Prop :=
  TestsFor f.key f.operator f.predicate operators.entries steps

/-- The steps of a filter without a schema: for each property, in order, the tests of its operators,
and nothing for one that holds `null`. -/
def Untyped.Appends (input : Fields) (steps : List Step) : Prop :=
  ∃ fragment : String × Json → List Step, steps = input.entries.flatMap fragment ∧
    ∀ entry ∈ input.entries,
      entry.2 = .null ∧ fragment entry = [] ∨
        ∃ operators : Fields, entry.2 = .object operators ∧
          TestsFor (.name entry.1) (operator entry.1) (predicate entry.1) operators.entries
            (fragment entry)

namespace Schema

mutual

/-- The steps of a vertex filter: its label, then the fragments of all fields that do not hold
`null`, first those of scalar fields and then the others, both in their order. -/
inductive Appends (s : Schema) : VertexFilter → Fields → List Step → Prop where
  | fields {f : VertexFilter} {input : Fields} {fragment : VertexFilter.Binding → List Step}
      (h : ∀ b ∈ input.entries.filterMap f.binding?, s.Fragment b (fragment b)) :
      s.Appends f input
        (.hasLabel [f.label] ::
          (((input.entries.filterMap f.binding?).filter fun b => b.filter.isScalar).flatMap
              fragment ++
            ((input.entries.filterMap f.binding?).filter fun b => !b.filter.isScalar).flatMap
              fragment))

inductive Fragment (s : Schema) : VertexFilter.Binding → List Step → Prop where
  | scalar {field : String} {f : ScalarFilter} {input : Fields} {steps : List Step}
      (h : f.Appends input steps) : s.Fragment ⟨field, .scalar f, .object input⟩ steps
  | vertex {field target : String} {f : VertexFilter} {input : Fields} {steps : List Step}
      (hf : s.filters.get? target = some f) (h : s.Appends f input steps) :
      s.Fragment ⟨field, .vertex target, .object input⟩ steps
  | relationship {field label target : String} {direction : Direction} {f : VertexFilter}
      {input : Fields} {steps : List Step} (hf : s.filters.get? target = some f)
      (h : s.Appends f input steps) :
      s.Fragment ⟨field, .relationship direction label target, .object input⟩
        [.suchThat (.anonymous (.hop direction [label] :: steps))]

end

end Schema

/-! ## Shaped steps read plainly -/

theorem TestsFor.tests {key : Key} {find : String → Except FilterError Operator}
    {predicate : String → Operator → Json → Except FilterError Predicate}
    {operators : List (String × Json)} {steps : List Step}
    (h : TestsFor key find predicate operators steps) : ∀ step ∈ steps, step.isTest = true := by
  unfold TestsFor at h
  generalize operators.filter (fun entry => !entry.2.isNull) = asked at h
  induction h with
  | nil => simp
  | cons hstep _ ih =>
      obtain ⟨op, p, -, -, rfl⟩ := hstep
      exact List.forall_mem_cons.mpr ⟨rfl, ih⟩

theorem readsPlainly_of_tests {steps : List Step} (h : ∀ step ∈ steps, step.isTest = true) :
    Step.ReadsPlainly steps := by
  refine .of_childless (fun step hm => ?_) fun child hm => ?_
  · have htest := h step hm
    cases step <;> first | exact ⟨rfl, rfl⟩ | cases htest
  · cases h _ hm

theorem Untyped.Appends.readsPlainly {input : Fields} {steps : List Step}
    (h : Untyped.Appends input steps) : Step.ReadsPlainly steps := by
  obtain ⟨fragment, rfl, hfragments⟩ := h
  refine .flatMap fun entry hm => ?_
  rcases hfragments entry hm with ⟨-, hnone⟩ | ⟨operators, -, htests⟩
  · rw [hnone]
    exact .of_childless (by simp) (by simp)
  · exact readsPlainly_of_tests htests.tests

namespace Schema

variable {s : Schema}

theorem fields_readsPlainly {bindings : List VertexFilter.Binding}
    {fragment : VertexFilter.Binding → List Step}
    (h : ∀ b ∈ bindings, Step.ReadsPlainly (fragment b)) (label : String) :
    Step.ReadsPlainly
      (.hasLabel [label] ::
        ((bindings.filter fun b => b.filter.isScalar).flatMap fragment ++
          (bindings.filter fun b => !b.filter.isScalar).flatMap fragment)) := by
  have hlabel : Step.ReadsPlainly [.hasLabel [label]] :=
    .of_childless (by simp [Step.isModulator, Step.isMutation]) (by simp)
  refine hlabel.append (.append (.flatMap fun b hb => ?_) (.flatMap fun b hb => ?_))
  · exact h b (List.mem_filter.mp hb).1
  · exact h b (List.mem_filter.mp hb).1

theorem walk_readsPlainly {steps : List Step} (h : Step.ReadsPlainly steps) (direction : Direction)
    (label : String) :
    Step.ReadsPlainly [.suchThat (.anonymous (.hop direction [label] :: steps))] := by
  have hwalk : Step.ReadsPlainly [.hop direction [label]] :=
    .of_childless (by simp [Step.isModulator, Step.isMutation]) (by simp)
  exact (hwalk.append h).suchThat

mutual

theorem Appends.readsPlainly {f : VertexFilter} {input : Fields} {steps : List Step} :
    s.Appends f input steps → Step.ReadsPlainly steps
  | .fields hfragments => fields_readsPlainly (fun b hb => (hfragments b hb).readsPlainly) f.label

theorem Fragment.readsPlainly {b : VertexFilter.Binding} {steps : List Step} :
    s.Fragment b steps → Step.ReadsPlainly steps
  | .scalar h => readsPlainly_of_tests h.tests
  | .vertex _ h => h.readsPlainly
  | .relationship _ h => walk_readsPlainly h.readsPlainly _ _

end

end Schema

/-! ## Compiled steps have the shape -/

theorem testsFor_of_compileEach {key : Key} {find : String → Except FilterError Operator}
    {predicate : String → Operator → Json → Except FilterError Predicate}
    {operators : List (String × Json)} {steps : List Step}
    (h : compileEach (operatorSteps key find predicate) operators = .ok steps) :
    TestsFor key find predicate operators steps := by
  induction operators generalizing steps with
  | nil =>
      cases h
      exact .nil
  | cons entry rest ih =>
      obtain ⟨name, value⟩ := entry
      rw [compileEach_operatorSteps] at h
      obtain ⟨op, hop, h⟩ := Except.bind_eq_ok.mp h
      cases hnull : value.isNull with
      | true =>
          rw [hnull, if_pos rfl] at h
          have hrest := ih h
          simpa [TestsFor, hnull] using hrest
      | false =>
          rw [hnull, if_neg Bool.false_ne_true] at h
          obtain ⟨p, hp, h⟩ := Except.bind_eq_ok.mp h
          obtain ⟨more, hmore, h⟩ := Except.bind_eq_ok.mp h
          cases h
          have hrest := ih hmore
          unfold TestsFor
          rw [List.filter_cons_of_pos (by simp [hnull])]
          exact .cons ⟨op, p, hop, hp, rfl⟩ hrest

theorem ScalarFilter.compile_appends (f : ScalarFilter) {operators : Fields} {steps : List Step}
    (h : f.compile operators.entries = .ok steps) : f.Appends operators steps := by
  rw [f.compile_eq] at h
  exact testsFor_of_compileEach h

theorem Untyped.compile_appends {input : Fields} {steps : List Step}
    (h : compile input.entries = .ok steps) : Untyped.Appends input steps := by
  rw [compile_eq] at h
  obtain ⟨hall, rfl⟩ := (compileEach_eq_ok_iff _ _ _).mp h
  refine ⟨fun entry => (fieldSteps entry).stepsOf, rfl, fun entry hm => ?_⟩
  obtain ⟨steps, hsteps⟩ := Except.isOk_iff.mp (hall entry hm)
  obtain ⟨field, value⟩ := entry
  cases value with
  | null => exact .inl ⟨rfl, rfl⟩
  | object operators =>
      have htests : TestsFor (.name field) (operator field) (predicate field) operators.entries
          steps := by
        refine testsFor_of_compileEach ?_
        rw [← compileOperators_eq]
        exact hsteps
      refine .inr ⟨operators, rfl, ?_⟩
      show TestsFor _ _ _ _ (fieldSteps (field, .object operators)).stepsOf
      rw [hsteps]
      exact htests
  | _ => cases hsteps

theorem compileBinding_fragment (schema : Schema) {descend : Descent}
    (hdescend : ∀ target nested steps, descend target nested = .ok steps →
      ∃ f, schema.filters.get? target = some f ∧ schema.Appends f nested steps)
    (b : VertexFilter.Binding) {steps : List Step} (h : compileBinding descend b = .ok steps) :
    schema.Fragment b steps := by
  obtain ⟨field, bound, value⟩ := b
  cases value with
  | object input =>
      cases bound with
      | scalar f => exact .scalar (f.compile_appends h)
      | vertex target =>
          obtain ⟨f, hf, happends⟩ := hdescend target input steps h
          exact .vertex hf happends
      | relationship direction label target =>
          obtain ⟨nested, hnested, hsteps⟩ := Except.bind_eq_ok.mp h
          cases hsteps
          obtain ⟨f, hf, happends⟩ := hdescend target input nested hnested
          exact .relationship hf happends
  | _ => cases h

theorem VertexFilter.compile_appends (schema : Schema) {descend : Descent}
    (hdescend : ∀ target nested steps, descend target nested = .ok steps →
      ∃ f, schema.filters.get? target = some f ∧ schema.Appends f nested steps)
    (f : VertexFilter) {input : Fields} {steps : List Step}
    (h : f.compile descend input = .ok steps) : schema.Appends f input steps := by
  obtain ⟨bindings, hbindings, h⟩ := Except.bind_eq_ok.mp h
  obtain ⟨nested, hnested, h⟩ := Except.bind_eq_ok.mp h
  cases h
  obtain ⟨-, rfl⟩ := (f.resolve_eq_ok_iff _ _).mp hbindings
  rw [compileBindings_eq] at hnested
  obtain ⟨hall, rfl⟩ := (compileEach_eq_ok_iff _ _ _).mp hnested
  have hfragments : ∀ b ∈ input.entries.filterMap f.binding?,
      schema.Fragment b (compileBinding descend b).stepsOf := by
    intro b hb
    obtain ⟨steps, hsteps⟩ := Except.isOk_iff.mp (hall b ((mem_scalarsFirst _ b).mpr hb))
    have hfragment := compileBinding_fragment schema hdescend b hsteps
    rw [hsteps]
    exact hfragment
  have happends := Schema.Appends.fields hfragments
  rwa [← List.flatMap_append] at happends

theorem Schema.compileAt_appends (schema : Schema) (remaining : Nat) (f : VertexFilter)
    {input : Fields} {steps : List Step} (h : schema.compileAt remaining f input = .ok steps) :
    schema.Appends f input steps := by
  -- on the levels that are left, as compiling goes down
  induction remaining generalizing f input steps with
  | zero => exact f.compile_appends schema (fun _ _ _ hnested => by cases hnested) h
  | succ remaining ih =>
      refine f.compile_appends schema (fun target nested more hmore => ?_) h
      obtain ⟨other, hother, hmore⟩ := Except.bind_eq_ok.mp hmore
      exact ⟨other, schema.get_eq_ok hother, ih other hmore⟩

/-! ## Filters only append -/

/-- A traversal goes on where another one ends, with steps that only narrow at every depth. -/
structure Continues (t r : Traversal) (more : List Step) : Prop where
  isAnonymous_eq : r.isAnonymous = t.isAnonymous
  steps_eq : r.steps = t.steps ++ more
  readsPlainly : Step.ReadsPlainly more
  isMutating_eq : r.isMutating = t.isMutating

theorem Continues.extend (t : Traversal) {more : List Step} (h : Step.ReadsPlainly more) :
    Continues t (t.extend more) more := by
  refine ⟨rfl, rfl, h, ?_⟩
  rw [Traversal.isMutating_extend, h.anyMutation, Bool.or_false]

/-- Whatever the input, as long as it is accepted: a filter leaves a traversal as it is and appends
steps of a fixed shape, none of which writes or refines another at any depth. -/
theorem apply_appends (t r : Traversal) (input : Fields) :
    (∀ (schema : Schema) (name : String), schema.apply name t input = .ok r →
      ∃ f more, schema.filters.get? name = some f ∧ schema.Appends f input more ∧
        Continues t r more) ∧
    (∀ f : ScalarFilter, f.apply t input = .ok r →
      ∃ more, f.Appends input more ∧ Continues t r more) ∧
    (Untyped.apply t input = .ok r →
      ∃ more, Untyped.Appends input more ∧ Continues t r more) := by
  refine ⟨fun schema name h => ?_, fun f h => ?_, fun h => ?_⟩
  · obtain ⟨more, hmore, rfl⟩ := Except.map_eq_ok.mp h
    obtain ⟨f, hf, hat⟩ := Except.bind_eq_ok.mp hmore
    have happends := schema.compileAt_appends _ f hat
    exact ⟨f, more, schema.get_eq_ok hf, happends, .extend t happends.readsPlainly⟩
  · obtain ⟨more, hmore, rfl⟩ := Except.map_eq_ok.mp h
    have happends := f.compile_appends hmore
    exact ⟨more, happends, .extend t (readsPlainly_of_tests happends.tests)⟩
  · obtain ⟨more, hmore, rfl⟩ := Except.map_eq_ok.mp h
    have happends := Untyped.compile_appends hmore
    exact ⟨more, happends, .extend t happends.readsPlainly⟩

/-- Whom to find: users who follow Bob, of any age, and are called Ann but not Eve. -/
def annFollowingBob : Fields :=
  .ofList [("following", .ofFields [("name", .ofFields [("eq", .string "Bob")])]), ("age", .null),
    ("name", .ofFields [("ne", .string "Eve"), ("eq", .string "Ann")])]

theorem apply_appends_following :
    (∃ r, (Social.filters 8).apply Social.user (.root [.vertices []]) annFollowingBob = .ok r ∧
      Continues (.root [.vertices []]) r
        [.hasLabel [Social.user], .has (.name "name") (.relation .neq (.string "Eve")),
          .has (.name "name") (.relation .eq (.string "Ann")),
          .suchThat (.anonymous
            [.hop (.along .outgoing) [Social.follows], .hasLabel [Social.user],
              .has (.name "name") (.relation .eq (.string "Bob"))])]) ∧
    (∃ r more, (ScalarFilter.ofField "age" .int).apply (.anonymous []) (.ofList [("lt", .int 30)]) =
      .ok r ∧ Continues (.anonymous []) r more) ∧
    ∃ r more, Untyped.apply (.root [.addVertex Social.user]) (.ofList [("age", .ofFields [])]) =
      .ok r ∧ Continues (.root [.addVertex Social.user]) r more := by
  refine ⟨?_, ?_, ?_⟩
  · obtain ⟨r, hr, hsteps⟩ : ∃ r,
        (Social.filters 8).apply Social.user (.root [.vertices []]) annFollowingBob = .ok r ∧
          r.steps = [.vertices []] ++ _ := ⟨_, rfl, rfl⟩
    obtain ⟨f, more, -, -, hcontinues⟩ :=
      (apply_appends _ r annFollowingBob).1 (Social.filters 8) Social.user hr
    have hmore := List.append_cancel_left (hcontinues.steps_eq.symm.trans hsteps)
    rw [hmore] at hcontinues
    exact ⟨r, hr, hcontinues⟩
  · obtain ⟨r, hr⟩ : ∃ r, (ScalarFilter.ofField "age" .int).apply (.anonymous [])
        (.ofList [("lt", .int 30)]) = .ok r := ⟨_, rfl⟩
    obtain ⟨more, -, hcontinues⟩ := (apply_appends _ r _).2.1 _ hr
    exact ⟨r, more, hr, hcontinues⟩
  · obtain ⟨r, hr⟩ : ∃ r, Untyped.apply (.root [.addVertex Social.user])
        (.ofList [("age", .ofFields [])]) = .ok r := ⟨_, rfl⟩
    obtain ⟨more, -, hcontinues⟩ := (apply_appends _ r _).2.2 hr
    exact ⟨r, more, hr, hcontinues⟩

end Filter

end GraphGateway
