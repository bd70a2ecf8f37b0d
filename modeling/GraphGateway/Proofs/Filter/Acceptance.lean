import GraphGateway.Proofs.Filter.Compile

/-!
# Accepted inputs

Which filter inputs compile. Every level of an input is compiled item by item, so
that an input is accepted if each of its items is, and the steps are those of the
items, one after another.
-/

namespace GraphGateway

namespace Filter

/-! ## One by one -/

/-- The steps of items, one after another; the first error counts. -/
def compileEach {α : Type} (f : α → Compiled) : List α → Compiled
  | [] => .ok []
  | a :: rest => do
      let steps ← f a
      let more ← compileEach f rest
      .ok (steps ++ more)

def Compiled.stepsOf (outcome : Compiled) : List Step :=
  outcome.toOption.getD []

theorem compileEach_eq_ok_iff {α : Type} (f : α → Compiled) (items : List α) (steps : List Step) :
    compileEach f items = .ok steps ↔
      (∀ a ∈ items, (f a).isOk = true) ∧ steps = items.flatMap fun a => (f a).stepsOf := by
  induction items generalizing steps with
  | nil =>
      constructor
      · intro h
        cases h
        exact ⟨by simp, rfl⟩
      · intro h
        rw [h.2]
        rfl
  | cons a rest ih =>
      rw [List.forall_mem_cons, List.flatMap_cons]
      constructor
      · intro h
        obtain ⟨first, hfirst, h⟩ := Except.bind_eq_ok.mp h
        obtain ⟨more, hmore, h⟩ := Except.bind_eq_ok.mp h
        cases h
        obtain ⟨hall, rfl⟩ := (ih more).mp hmore
        rw [hfirst]
        exact ⟨⟨rfl, hall⟩, rfl⟩
      · intro h
        rcases h with ⟨⟨hok, hall⟩, rfl⟩
        obtain ⟨first, hfirst⟩ := Except.isOk_iff.mp hok
        have hrest := (ih (rest.flatMap fun a => (f a).stepsOf)).mpr ⟨hall, rfl⟩
        refine Except.bind_eq_ok.mpr ⟨first, hfirst, Except.bind_eq_ok.mpr ⟨_, hrest, ?_⟩⟩
        rw [hfirst]
        rfl

theorem compileEach_isOk {α : Type} (f : α → Compiled) (items : List α) :
    (compileEach f items).isOk = true ↔ ∀ a ∈ items, (f a).isOk = true := by
  rw [Except.isOk_iff]
  simp only [compileEach_eq_ok_iff, exists_and_left, exists_eq, and_true]

/-- The error is that of the first item that has one. -/
theorem compileEach_eq_error_iff {α : Type} (f : α → Compiled) (items : List α)
    (e : FilterError) :
    compileEach f items = .error e ↔
      ∃ before a after, items = before ++ a :: after ∧ (∀ b ∈ before, (f b).isOk = true) ∧
        f a = .error e := by
  induction items with
  | nil =>
      constructor
      · intro h
        cases h
      · intro h
        obtain ⟨before, a, after, hitems, -⟩ := h
        simp at hitems
  | cons head rest ih =>
      constructor
      · intro h
        rcases Except.bind_eq_error.mp h with h | ⟨first, hfirst, h⟩
        · exact ⟨[], head, rest, rfl, by simp, h⟩
        · have hrest : compileEach f rest = .error e := by
            rcases Except.bind_eq_error.mp h with h | ⟨more, -, h⟩
            · exact h
            · cases h
          obtain ⟨before, a, after, rfl, hbefore, ha⟩ := ih.mp hrest
          refine ⟨head :: before, a, after, rfl, ?_, ha⟩
          exact List.forall_mem_cons.mpr ⟨Except.isOk_iff.mpr ⟨first, hfirst⟩, hbefore⟩
      · intro h
        obtain ⟨before, a, after, hitems, hbefore, ha⟩ := h
        cases before with
        | nil =>
            obtain ⟨rfl, rfl⟩ := List.cons.inj hitems
            exact Except.bind_eq_error.mpr (.inl ha)
        | cons first before =>
            obtain ⟨rfl, rfl⟩ := List.cons.inj hitems
            obtain ⟨hfirst, hbefore⟩ := List.forall_mem_cons.mp hbefore
            obtain ⟨steps, hsteps⟩ := Except.isOk_iff.mp hfirst
            have hrest := ih.mpr ⟨before, a, after, rfl, hbefore, ha⟩
            exact Except.bind_eq_error.mpr
              (.inr ⟨steps, hsteps, Except.bind_eq_error.mpr (.inl hrest)⟩)

theorem compileEach_filterMap {α β : Type} (f : β → Compiled) (g : α → Option β)
    (items : List α) :
    compileEach f (items.filterMap g) = compileEach (fun a => (g a).elim (.ok []) f) items := by
  induction items with
  | nil => rfl
  | cons a rest ih =>
      rw [List.filterMap_cons, compileEach, ← ih]
      cases g a with
      | none => exact (bind_pure (compileEach f (rest.filterMap g))).symm
      | some b => rfl

/-- What the steps of every item have in common. -/
theorem compileEach_forall {α : Type} {f : α → Compiled} {P : Step → Prop}
    (hf : ∀ a, ∀ step ∈ (f a).stepsOf, P step) (items : List α) :
    ∀ step ∈ (compileEach f items).stepsOf, P step := by
  intro step hm
  cases h : compileEach f items with
  | error e =>
      rw [h] at hm
      cases hm
  | ok steps =>
      have hsteps : (compileEach f items).stepsOf = steps := by
        rw [h]
        rfl
      rw [hsteps, ((compileEach_eq_ok_iff f items steps).mp h).2] at hm
      obtain ⟨a, -, ha⟩ := List.mem_flatMap.mp hm
      exact hf a step ha

/-! ## Operators -/

section Operators

variable (key : Key) (find : String → Except FilterError Operator)
  (predicate : String → Operator → Json → Except FilterError Predicate)

/-- The steps of one operator with its comparison value: one, or none for `null`. -/
def operatorSteps : String × Json → Compiled
  | (name, value) => do
      let op ← find name
      if value.isNull then .ok []
      else do
        let p ← predicate name op value
        .ok [.has key p]

variable {predicate} in
/-- Comparison values that are told apart neither as `null` nor by predicates. -/
theorem operatorSteps_isOk_congr {name : String} {v w : Json} (hnull : v.isNull = w.isNull)
    (hp : ∀ op, (predicate name op v).isOk = (predicate name op w).isOk) :
    (operatorSteps key find predicate (name, v)).isOk =
      (operatorSteps key find predicate (name, w)).isOk := by
  unfold operatorSteps
  simp only [hnull]
  cases find name with
  | error e => rfl
  | ok op =>
      simp only [Except.ok_bind]
      have hop := hp op
      cases w.isNull with
      | true => rfl
      | false =>
          revert hop
          cases predicate name op v <;> cases predicate name op w <;> exact fun hop => hop

theorem operatorSteps_eq_error_iff (name : String) (value : Json) (e : FilterError) :
    operatorSteps key find predicate (name, value) = .error e ↔
      find name = .error e ∨
        ∃ op, find name = .ok op ∧ value.isNull = false ∧ predicate name op value = .error e := by
  rw [operatorSteps, Except.bind_eq_error]
  refine or_congr_right (exists_congr fun op => and_congr_right fun _ => ?_)
  cases value.isNull with
  | true => simp
  | false => simp [Except.bind_eq_error]

theorem operatorSteps_has (entry : String × Json) :
    ∀ step ∈ (operatorSteps key find predicate entry).stepsOf, ∃ p, step = .has key p := by
  obtain ⟨name, value⟩ := entry
  intro step hm
  rw [operatorSteps] at hm
  cases hfind : find name with
  | error e =>
      rw [hfind] at hm
      cases hm
  | ok op =>
      rw [hfind] at hm
      simp only [Except.ok_bind] at hm
      split at hm
      · cases hm
      · cases hp : predicate name op value with
        | error e =>
            rw [hp] at hm
            cases hm
        | ok p =>
            rw [hp] at hm
            exact ⟨p, List.mem_singleton.mp hm⟩

theorem compileEach_operatorSteps (name : String) (value : Json) (rest : List (String × Json)) :
    compileEach (operatorSteps key find predicate) ((name, value) :: rest) =
      find name >>= fun op =>
        if value.isNull then compileEach (operatorSteps key find predicate) rest
        else
          predicate name op value >>= fun p =>
            compileEach (operatorSteps key find predicate) rest >>= fun steps =>
              .ok (.has key p :: steps) := by
  rw [compileEach, operatorSteps]
  cases find name with
  | error e => rfl
  | ok op =>
      simp only [Except.ok_bind]
      cases value.isNull with
      | true => exact bind_pure (compileEach (operatorSteps key find predicate) rest)
      | false => cases predicate name op value <;> rfl

end Operators

theorem ScalarFilter.compile_eq (f : ScalarFilter) (entries : List (String × Json)) :
    f.compile entries = compileEach (operatorSteps f.key f.operator f.predicate) entries := by
  induction entries with
  | nil => rfl
  | cons head rest ih =>
      obtain ⟨name, value⟩ := head
      rw [compileEach_operatorSteps, ← ih]
      rfl

theorem Untyped.compileOperators_eq (field : String) (entries : List (String × Json)) :
    compileOperators field entries =
      compileEach (operatorSteps (.name field) (operator field) (predicate field)) entries := by
  induction entries with
  | nil => rfl
  | cons head rest ih =>
      obtain ⟨name, value⟩ := head
      rw [compileEach_operatorSteps, ← ih]
      rfl

def Untyped.fieldSteps : String × Json → Compiled
  | (_, .null) => .ok []
  | (field, .object ⟨operators⟩) => compileOperators field operators
  | (field, other) => .error (.expectedObject field other)

theorem Untyped.compile_eq (entries : List (String × Json)) :
    compile entries = compileEach fieldSteps entries := by
  induction entries with
  | nil => rfl
  | cons head rest ih =>
      obtain ⟨field, value⟩ := head
      cases value with
      | null =>
          rw [compile, ih]
          exact (bind_pure (compileEach fieldSteps rest)).symm
      | object operators =>
          rw [compile, ih]
          rfl
      | _ => rfl

/-! ## Fields of a vertex filter -/

theorem compileBindings_eq (descend : Descent) (bindings : List VertexFilter.Binding) :
    compileBindings descend bindings = compileEach (compileBinding descend) bindings := by
  induction bindings with
  | nil => rfl
  | cons b rest ih =>
      rw [compileBindings, ih]
      rfl

namespace VertexFilter

theorem compile_isOk (descend : Descent) (f : VertexFilter) (input : Fields) :
    (f.compile descend input).isOk = true ↔
      ∀ entry ∈ input.entries, ∃ bound, f.find? entry.1 = some bound ∧
        (entry.2.isNull = false →
          (compileBinding descend ⟨entry.1, bound, entry.2⟩).isOk = true) := by
  rw [← f.resolve_forall fun b => (compileBinding descend b).isOk = true, Except.isOk_iff]
  have hbindings : ∀ bindings, (compileBindings descend (scalarsFirst bindings)).isOk = true ↔
      ∀ b ∈ bindings, (compileBinding descend b).isOk = true := by
    intro bindings
    rw [compileBindings_eq, compileEach_isOk]
    simp only [mem_scalarsFirst]
  constructor
  · intro hcompiled
    obtain ⟨steps, hsteps⟩ := hcompiled
    obtain ⟨bindings, hresolve, h⟩ := Except.bind_eq_ok.mp hsteps
    obtain ⟨nested, hnested, -⟩ := Except.bind_eq_ok.mp h
    exact ⟨bindings, hresolve, (hbindings bindings).mp (Except.isOk_iff.mpr ⟨nested, hnested⟩)⟩
  · intro hresolved
    rcases hresolved with ⟨bindings, hresolve, hall⟩
    obtain ⟨nested, hnested⟩ := Except.isOk_iff.mp ((hbindings bindings).mpr hall)
    exact ⟨_, Except.bind_eq_ok.mpr ⟨bindings, hresolve,
      Except.bind_eq_ok.mpr ⟨nested, hnested, rfl⟩⟩⟩

end VertexFilter

end Filter

end GraphGateway
