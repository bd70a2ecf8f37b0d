import GraphGateway.Proofs.Filter.Registration

/-!
# Faulty inputs

Which inputs a schema accepts, and which of several errors a refused one is
answered with, said by recursion on the input and without any steps. A level is
refused for its first unknown field if it has one. Otherwise the first faulty
field counts, scalar fields before the others, and a field that would lead too
deep is refused before anything inside it is looked at.
-/

namespace GraphGateway

namespace Filter

/-! ## Well-formed inputs -/

/-- The kind has the operator, and a comparison value other than `null` makes a predicate. -/
def ScalarFilter.Admits (f : ScalarFilter) (entry : String × Json) : Prop :=
  ∃ op, f.kind.operators.find? entry.1 = some op ∧
    (entry.2.isNull = false → ∃ p, op.build entry.2 f.kind.coerce = .ok p)

namespace Schema

mutual

def WellFormed (s : Schema) (f : VertexFilter) (depth : Nat) : List (String × Json) → Prop
  | [] => True
  | (field, value) :: rest =>
      (∃ bound, f.find? field = some bound ∧ s.Suits bound depth value) ∧ s.WellFormed f depth rest

def Suits (s : Schema) (bound : FieldFilter) (depth : Nat) : Json → Prop
  | .null => True
  | .object ⟨input⟩ =>
      match bound with
      | .scalar f => ∀ entry ∈ input, f.Admits entry
      | .vertex target | .relationship _ _ target =>
          depth + 1 ≤ s.maxDepth ∧
            ∃ g, s.filters.get? target = some g ∧ s.WellFormed g (depth + 1) input
  | _ => False

end

/-- An input is well-formed if its fields are, one by one. -/
theorem wellFormed_iff (s : Schema) (f : VertexFilter) (depth : Nat)
    (input : List (String × Json)) :
    s.WellFormed f depth input ↔
      ∀ entry ∈ input, ∃ bound, f.find? entry.1 = some bound ∧ s.Suits bound depth entry.2 := by
  induction input with
  | nil => simp [WellFormed]
  | cons head rest ih =>
      obtain ⟨field, value⟩ := head
      rw [WellFormed, ih, List.forall_mem_cons]

end Schema

/-! ## Errors -/

/-- What is wrong with an operator and its comparison value. -/
inductive ScalarFilter.Faulty (f : ScalarFilter) : String × Json → FilterError → Prop where
  | operator {name value} :
      f.kind.operators.find? name = none → Faulty f (name, value) (.unknownOperator f.kind name)
  | value {name value op reason} :
      f.kind.operators.find? name = some op → value.isNull = false →
        op.build value f.kind.coerce = .error reason →
          Faulty f (name, value) (.invalidValue f.field name reason)

/-- The fields of an input in the order in which they are handled: scalar fields first. -/
def VertexFilter.inTurn (f : VertexFilter) (input : List (String × Json)) :
    List (String × Json) :=
  input.filter (fun entry => (f.find? entry.1).any FieldFilter.isScalar) ++
    input.filter fun entry => !(f.find? entry.1).any FieldFilter.isScalar

def VertexFilter.KnowsAll (f : VertexFilter) (input : List (String × Json)) : Prop :=
  ∀ entry ∈ input, (f.find? entry.1).isSome = true

namespace Schema

mutual

inductive Refuses (s : Schema) : VertexFilter → Nat → List (String × Json) → FilterError → Prop
  /-- A field that is not known, after fields that are. -/
  | unknown {f depth input known field value rest} :
      input = known ++ (field, value) :: rest → f.KnowsAll known → f.find? field = none →
        Refuses s f depth input (.unknownField f.name field)
  /-- A faulty field, after fields that are well-formed. -/
  | field {f depth input fine entry rest bound e} :
      f.KnowsAll input → f.inTurn input = fine ++ entry :: rest → s.WellFormed f depth fine →
        f.find? entry.1 = some bound → RefusesField s bound depth entry.1 entry.2 e →
          Refuses s f depth input e

inductive RefusesField (s : Schema) : FieldFilter → Nat → String → Json → FilterError → Prop
  | notAnObject {bound depth field value} :
      value.isNull = false → value.asObject? = none →
        RefusesField s bound depth field value (.expectedObject field value)
  | operator {f depth field input fine entry rest e} :
      input.entries = fine ++ entry :: rest → (∀ other ∈ fine, f.Admits other) →
        f.Faulty entry e → RefusesField s (.scalar f) depth field (.object input) e
  | tooDeep {bound depth field input target} :
      bound.target? = some target → s.maxDepth < depth + 1 →
        RefusesField s bound depth field (.object input) (.depthExceeded s.maxDepth)
  | nested {bound depth field input target g e} :
      bound.target? = some target → depth + 1 ≤ s.maxDepth → s.filters.get? target = some g →
        Refuses s g (depth + 1) input.entries e →
          RefusesField s bound depth field (.object input) e

end

end Schema

/-! ## Operators -/

namespace ScalarFilter

variable (f : ScalarFilter)

theorem operatorSteps_isOk_iff (entry : String × Json) :
    (operatorSteps f.key f.operator f.predicate entry).isOk = true ↔ f.Admits entry := by
  obtain ⟨name, value⟩ := entry
  simp only [operatorSteps, Admits, operator, predicate]
  cases f.kind.operators.find? name with
  | none => simp [Except.isOk_iff, Except.bind_eq_ok]
  | some op =>
      simp only [Except.ok_bind, Option.some.injEq, exists_eq_left']
      cases value.isNull with
      | true => simp [Except.isOk_iff]
      | false =>
          simp [Except.isOk_iff, Except.bind_eq_ok, Except.mapError_eq_ok]

theorem operatorSteps_error_iff (entry : String × Json) (e : FilterError) :
    operatorSteps f.key f.operator f.predicate entry = .error e ↔ f.Faulty entry e := by
  obtain ⟨name, value⟩ := entry
  rw [operatorSteps_eq_error_iff]
  simp only [operator, predicate]
  constructor
  · intro h
    rcases h with h | ⟨op, hop, hvalue, h⟩
    · split at h
      · cases h
      next hnone =>
          cases h
          exact .operator hnone
    · split at hop
      next hsome =>
          cases hop
          cases hbuild : op.build value f.kind.coerce with
          | ok p =>
              rw [hbuild] at h
              cases h
          | error reason =>
              rw [hbuild] at h
              cases h
              exact .value hsome hvalue hbuild
      · cases hop
  · intro h
    cases h with
    | operator hnone => exact .inl (by rw [hnone])
    | value hsome hvalue hbuild =>
        exact .inr ⟨_, by rw [hsome], hvalue, by rw [hbuild]; rfl⟩

theorem compile_isOk_iff (entries : List (String × Json)) :
    (f.compile entries).isOk = true ↔ ∀ entry ∈ entries, f.Admits entry := by
  rw [compile_eq, compileEach_isOk]
  simp only [operatorSteps_isOk_iff]

theorem compile_error_iff (entries : List (String × Json)) (e : FilterError) :
    f.compile entries = .error e ↔
      ∃ fine entry rest, entries = fine ++ entry :: rest ∧ (∀ other ∈ fine, f.Admits other) ∧
        f.Faulty entry e := by
  rw [compile_eq, compileEach_eq_error_iff]
  simp only [operatorSteps_isOk_iff, operatorSteps_error_iff]

end ScalarFilter

/-! ## One level -/

namespace VertexFilter

/-- The steps of a field of an input; none for one that holds `null`. -/
def fieldSteps (descend : Descent) (f : VertexFilter) (entry : String × Json) : Compiled :=
  (f.binding? entry).elim (.ok []) (compileBinding descend)

theorem fieldSteps_of_find? {f : VertexFilter} {entry : String × Json} {bound : FieldFilter}
    (h : f.find? entry.1 = some bound) (descend : Descent) :
    f.fieldSteps descend entry =
      if entry.2.isNull then .ok [] else compileBinding descend ⟨entry.1, bound, entry.2⟩ := by
  rw [fieldSteps, binding?, h]
  cases entry.2.isNull <;> rfl

theorem mem_inTurn (f : VertexFilter) (input : List (String × Json)) (entry : String × Json) :
    entry ∈ f.inTurn input ↔ entry ∈ input := by
  simp only [inTurn, List.mem_append, List.mem_filter]
  cases (f.find? entry.1).any FieldFilter.isScalar <;> simp

theorem scalarsFirst_filterMap (f : VertexFilter) (input : List (String × Json)) :
    scalarsFirst (input.filterMap f.binding?) = (f.inTurn input).filterMap f.binding? := by
  have hscalar : ∀ (entry : String × Json) (b : Binding), f.binding? entry = some b →
      b.filter.isScalar = (f.find? entry.1).any FieldFilter.isScalar := by
    intro entry b hb
    obtain ⟨filter, hfind, hsome⟩ := Option.bind_eq_some_iff.mp hb
    split at hsome
    · cases hsome
    · cases hsome
      rw [hfind]
      rfl
  have hpart : ∀ (keep : Bool → Bool),
      (input.filterMap f.binding?).filter (fun b => keep b.filter.isScalar) =
        (input.filter fun entry =>
          keep ((f.find? entry.1).any FieldFilter.isScalar)).filterMap f.binding? := by
    intro keep
    rw [List.filter_filterMap, List.filterMap_filter]
    refine List.filterMap_congr fun entry _ => ?_
    cases hb : f.binding? entry with
    | none => simp
    | some b => simp [Option.filter, hscalar entry b hb]
  rw [scalarsFirst, inTurn, List.filterMap_append]
  exact congrArg₂ (· ++ ·) (hpart id) (hpart not)

theorem compile_error_iff (descend : Descent) (f : VertexFilter) (input : Fields)
    (e : FilterError) :
    f.compile descend input = .error e ↔
      (∃ known field value rest, input.entries = known ++ (field, value) :: rest ∧
        f.KnowsAll known ∧ f.find? field = none ∧ e = .unknownField f.name field) ∨
      f.KnowsAll input.entries ∧ ∃ before entry rest,
        f.inTurn input.entries = before ++ entry :: rest ∧
          (∀ other ∈ before, (f.fieldSteps descend other).isOk = true) ∧
            f.fieldSteps descend entry = .error e := by
  rw [compile, Except.bind_eq_error, resolve_eq_error_iff]
  refine or_congr Iff.rfl ?_
  have hsteps : (do
      let steps ← compileBindings descend (scalarsFirst (input.entries.filterMap f.binding?))
      (.ok (.hasLabel [f.label] :: steps) : Compiled)) = .error e ↔
        compileEach (f.fieldSteps descend) (f.inTurn input.entries) = .error e := by
    rw [Except.bind_eq_error, compileBindings_eq, scalarsFirst_filterMap, compileEach_filterMap]
    simp only [reduceCtorEq, and_false, exists_false, or_false]
    rfl
  simp only [resolve_eq_ok_iff, and_assoc, exists_and_left, exists_eq_left, hsteps,
    compileEach_eq_error_iff]
  rfl

end VertexFilter

namespace Schema

variable {s : Schema} {depth : Nat} {descend : Descent}

/-- Nested inputs are accepted and refused as inputs one level below a depth. -/
structure Judges (s : Schema) (depth : Nat) (descend : Descent) : Prop where
  isOk_iff : ∀ {target g}, s.filters.get? target = some g → ∀ nested : Fields,
    ((descend target nested).isOk = true ↔
      depth + 1 ≤ s.maxDepth ∧ s.WellFormed g (depth + 1) nested.entries)
  error_iff : ∀ {target g}, s.filters.get? target = some g → ∀ (nested : Fields) e,
    (descend target nested = .error e ↔
      s.maxDepth < depth + 1 ∧ e = .depthExceeded s.maxDepth ∨
        depth + 1 ≤ s.maxDepth ∧ s.Refuses g (depth + 1) nested.entries e)

theorem Judges.binding_isOk_iff (h : s.Judges depth descend) {field : String}
    {bound : FieldFilter}
    (hbound : ∀ target, bound.target? = some target → ∃ g, s.filters.get? target = some g)
    {value : Json} (hvalue : value.isNull = false) :
    (compileBinding descend ⟨field, bound, value⟩).isOk = true ↔ s.Suits bound depth value := by
  cases value with
  | null => cases hvalue
  | object input =>
      cases bound with
      | scalar f => exact f.compile_isOk_iff input.entries
      | vertex target =>
          obtain ⟨g, hg⟩ := hbound target rfl
          simp [compileBinding, Suits, h.isOk_iff hg, hg]
      | relationship direction label target =>
          obtain ⟨g, hg⟩ := hbound target rfl
          have hnested : (compileBinding descend
              ⟨field, .relationship direction label target, .object input⟩).isOk =
                (descend target input).isOk := by
            simp only [compileBinding]
            cases descend target input <;> rfl
          simp [hnested, Suits, h.isOk_iff hg, hg]
  | _ => simp [compileBinding, Suits, Except.isOk_iff]

/-- A nested input is refused for the descent, or for what is inside it. -/
theorem Judges.descend_error_iff (h : s.Judges depth descend) {field : String}
    (bound : FieldFilter) {target : String} (htarget : bound.target? = some target)
    {g : VertexFilter} (hg : s.filters.get? target = some g) (input : Fields) (e : FilterError) :
    descend target input = .error e ↔ s.RefusesField bound depth field (.object input) e := by
  rw [h.error_iff hg]
  constructor
  · intro hfault
    rcases hfault with ⟨hdeep, rfl⟩ | ⟨hdepth, hrefused⟩
    · exact .tooDeep htarget hdeep
    · exact .nested htarget hdepth hg hrefused
  · intro hfault
    cases hfault with
    | notAnObject _ hobject => cases hobject
    | operator => cases htarget
    | tooDeep _ hdeep => exact .inl ⟨hdeep, rfl⟩
    | nested hother hdepth hget hrefused =>
        obtain rfl := Option.some.inj (hother.symm.trans htarget)
        obtain rfl := Option.some.inj (hget.symm.trans hg)
        exact .inr ⟨hdepth, hrefused⟩

theorem Judges.binding_error_iff (h : s.Judges depth descend) {field : String}
    {bound : FieldFilter}
    (hbound : ∀ target, bound.target? = some target → ∃ g, s.filters.get? target = some g)
    {value : Json} (hvalue : value.isNull = false) (e : FilterError) :
    compileBinding descend ⟨field, bound, value⟩ = .error e ↔
      s.RefusesField bound depth field value e := by
  have hother : ∀ v : Json, v.isNull = false → v.asObject? = none →
      ((.error (.expectedObject field v) : Compiled) = .error e ↔
        s.RefusesField bound depth field v e) := by
    intro v hv hobject
    constructor
    · intro heq
      cases heq
      exact .notAnObject hv hobject
    · intro hfault
      cases hfault with
      | notAnObject => rfl
      | _ => cases hobject
  cases value with
  | null => cases hvalue
  | object input =>
      cases bound with
      | scalar f =>
          have hcompile : compileBinding descend ⟨field, .scalar f, .object input⟩ =
              f.compile input.entries := rfl
          rw [hcompile, f.compile_error_iff]
          constructor
          · intro hfault
            obtain ⟨fine, entry, rest, hentries, hfine, hfaulty⟩ := hfault
            exact .operator hentries hfine hfaulty
          · intro hfault
            cases hfault with
            | notAnObject _ hobject => cases hobject
            | operator hentries hfine hfaulty => exact ⟨_, _, _, hentries, hfine, hfaulty⟩
            | tooDeep htarget => cases htarget
            | nested htarget => cases htarget
      | vertex target =>
          obtain ⟨g, hg⟩ := hbound target rfl
          exact h.descend_error_iff (.vertex target) rfl hg input e
      | relationship direction label target =>
          obtain ⟨g, hg⟩ := hbound target rfl
          rw [← h.descend_error_iff (.relationship direction label target) rfl hg]
          simp [compileBinding, Except.bind_eq_error]
  | _ => exact hother _ rfl rfl

theorem RefusesField.isNull_eq_false {field : String} {bound : FieldFilter} {value : Json}
    {e : FilterError} (h : s.RefusesField bound depth field value e) : value.isNull = false := by
  cases h with
  | notAnObject hnull => exact hnull
  | _ => rfl

variable {f : VertexFilter}

theorem Judges.suits_iff (h : s.Judges depth descend) (hf : s.Resolves f)
    {entry : String × Json} {bound : FieldFilter} (hbound : f.find? entry.1 = some bound) :
    s.Suits bound depth entry.2 ↔ (entry.2.isNull = false →
      (compileBinding descend ⟨entry.1, bound, entry.2⟩).isOk = true) := by
  cases hnull : entry.2.isNull with
  | true => simp [Json.eq_null_of_isNull hnull, Suits]
  | false => simp [h.binding_isOk_iff (hf _ (OrderedMap.mem_of_lookup hbound)) hnull]

theorem Judges.fieldSteps_isOk_iff (h : s.Judges depth descend) (hf : s.Resolves f)
    {entry : String × Json} (hknown : (f.find? entry.1).isSome = true) :
    (f.fieldSteps descend entry).isOk = true ↔
      ∃ bound, f.find? entry.1 = some bound ∧ s.Suits bound depth entry.2 := by
  obtain ⟨bound, hbound⟩ := Option.isSome_iff_exists.mp hknown
  simp only [hbound, Option.some.injEq, exists_eq_left']
  rw [VertexFilter.fieldSteps_of_find? hbound, h.suits_iff hf hbound]
  cases entry.2.isNull with
  | true => simp [Except.isOk_iff]
  | false => simp

theorem Judges.compile_isOk_iff (h : s.Judges depth descend) (hf : s.Resolves f)
    (input : Fields) :
    (f.compile descend input).isOk = true ↔ s.WellFormed f depth input.entries := by
  rw [f.compile_isOk, wellFormed_iff]
  exact forall₂_congr fun entry _ => exists_congr fun bound => and_congr_right fun hbound =>
    (h.suits_iff hf hbound).symm

/-- Fields that are known have steps exactly if they are well-formed. -/
theorem Judges.fields_isOk_iff (h : s.Judges depth descend) (hf : s.Resolves f)
    {entries : List (String × Json)} (hknown : f.KnowsAll entries) :
    (∀ entry ∈ entries, (f.fieldSteps descend entry).isOk = true) ↔
      s.WellFormed f depth entries := by
  rw [wellFormed_iff]
  exact forall₂_congr fun entry hentry => h.fieldSteps_isOk_iff hf (hknown entry hentry)

theorem Judges.fieldSteps_error_iff (h : s.Judges depth descend) (hf : s.Resolves f)
    {entry : String × Json} {bound : FieldFilter} (hbound : f.find? entry.1 = some bound)
    (e : FilterError) :
    f.fieldSteps descend entry = .error e ↔ s.RefusesField bound depth entry.1 entry.2 e := by
  rw [VertexFilter.fieldSteps_of_find? hbound]
  cases hnull : entry.2.isNull with
  | true =>
      constructor
      · intro herror
        cases herror
      · intro hfault
        rw [hfault.isNull_eq_false] at hnull
        cases hnull
  | false => exact h.binding_error_iff (hf _ (OrderedMap.mem_of_lookup hbound)) hnull e

theorem Judges.compile_error_iff (h : s.Judges depth descend) (hf : s.Resolves f)
    (input : Fields) (e : FilterError) :
    f.compile descend input = .error e ↔ s.Refuses f depth input.entries e := by
  have hknownBefore : ∀ {before entry rest}, f.KnowsAll input.entries →
      f.inTurn input.entries = before ++ entry :: rest → f.KnowsAll before := by
    intro before entry rest hknown hinTurn other hother
    exact hknown other ((f.mem_inTurn _ other).mp (by simp [hinTurn, hother]))
  rw [f.compile_error_iff]
  constructor
  · intro hfault
    rcases hfault with ⟨known, field, value, rest, hentries, hknown, hnone, rfl⟩ |
      ⟨hknown, before, entry, rest, hinTurn, hbefore, herror⟩
    · exact .unknown hentries hknown hnone
    · have hmem : entry ∈ input.entries := (f.mem_inTurn _ entry).mp (by simp [hinTurn])
      obtain ⟨bound, hbound⟩ := Option.isSome_iff_exists.mp (hknown entry hmem)
      have hwell := (h.fields_isOk_iff hf (hknownBefore hknown hinTurn)).mp hbefore
      exact .field hknown hinTurn hwell hbound ((h.fieldSteps_error_iff hf hbound e).mp herror)
  · intro hfault
    cases hfault with
    | unknown hentries hknown hnone => exact .inl ⟨_, _, _, _, hentries, hknown, hnone, rfl⟩
    | field hknown hinTurn hwell hbound hfield =>
        have hbefore := (h.fields_isOk_iff hf (hknownBefore hknown hinTurn)).mpr hwell
        exact .inr ⟨hknown, _, _, _, hinTurn, hbefore,
          (h.fieldSteps_error_iff hf hbound e).mpr hfield⟩

/-! ## All levels -/

theorem compileAt_judged (hs : s.Closed) (remaining : Nat) (hf : s.Resolves f)
    (hdepth : depth + remaining = s.maxDepth) (input : Fields) :
    ((s.compileAt remaining f input).isOk = true ↔ s.WellFormed f depth input.entries) ∧
      ∀ e, s.compileAt remaining f input = .error e ↔ s.Refuses f depth input.entries e := by
  -- on the levels that are left, which together with the depth make the limit
  induction remaining generalizing f depth input with
  | zero =>
      have hjudges : s.Judges depth fun _ _ => .error (.depthExceeded s.maxDepth) := by
        have hdeep : s.maxDepth < depth + 1 := by omega
        have hno : ¬ depth + 1 ≤ s.maxDepth := by omega
        refine ⟨fun _ _ => ?_, fun _ _ e => ?_⟩
        · simp [hno, Except.isOk_iff]
        · simp [hno, hdeep, eq_comm]
      exact ⟨hjudges.compile_isOk_iff hf input, hjudges.compile_error_iff hf input⟩
  | succ remaining ih =>
      have hjudges : s.Judges depth
          (fun target nested => s.get target >>= fun g => s.compileAt remaining g nested) := by
        have hno : ¬ s.maxDepth < depth + 1 := by omega
        have hyes : depth + 1 ≤ s.maxDepth := by omega
        refine ⟨fun {target g} hg nested => ?_, fun {target g} hg nested e => ?_⟩
        · simp only [get, hg, hyes, true_and]
          exact (ih (hs target g hg) (by omega) nested).1
        · simp only [get, hg, hyes, hno, true_and, false_and, false_or]
          exact (ih (hs target g hg) (by omega) nested).2 e
      exact ⟨hjudges.compile_isOk_iff hf input, hjudges.compile_error_iff hf input⟩

/-- Which inputs a schema accepts, and which error each of the others is refused with. -/
theorem apply_judges_inputs {filters : List VertexFilter} {maxDepth : Nat}
    (hbuild : build filters maxDepth = .ok s) (name : String) (t : Traversal) (input : Fields) :
    s.maxDepth = maxDepth ∧
    ((∃ filtered, s.apply name t input = .ok filtered) ↔
      ∃ f, s.filters.get? name = some f ∧ s.WellFormed f 0 input.entries) ∧
    ∀ e, s.apply name t input = .error e ↔
      s.filters.get? name = none ∧ e = .unknownFilter name ∨
        ∃ f, s.filters.get? name = some f ∧ s.Refuses f 0 input.entries e := by
  have hclosed : s.Closed := closed_of_build hbuild
  obtain rfl : s.maxDepth = maxDepth := by
    obtain ⟨rfl, -⟩ := (build_eq_ok_iff filters maxDepth s).mp hbuild
    rfl
  simp only [apply, Except.map_eq_ok, Except.map_eq_error, compile, get, true_and]
  cases hname : s.filters.get? name with
  | none =>
      simp only [Except.bind_eq_ok, Except.bind_eq_error]
      simp [eq_comm]
  | some f =>
      have hjudged := compileAt_judged hclosed s.maxDepth (hclosed name f hname)
        (Nat.zero_add _) input
      simp only [Except.ok_bind]
      simp [hjudged.2, ← hjudged.1, Except.isOk_iff]

/-- A descent of two levels, with a field further down that does not exist. -/
def twoDescents : Fields :=
  .ofList [("following", .ofFields [("followers", .ofFields [("nickname", .ofFields [])])]),
    ("age", .ofFields [("ge", .int 18), ("lt", .null)])]

theorem apply_judges_inputs_nested :
    build [Social.userFilter, Social.postFilter] 1 = .ok (Social.filters 1) ∧
      (Social.filters 1).apply Social.user (.root [.vertices []]) twoDescents =
        .error (.depthExceeded 1) := by
  have hbuild := Social.build_filters 1
  have hjudged := apply_judges_inputs hbuild Social.user (.root [.vertices []]) twoDescents
  refine ⟨hbuild, (hjudged.2.2 _).mpr (.inr ⟨Social.userFilter, rfl, ?_⟩)⟩
  have hage : (Social.filters 1).WellFormed Social.userFilter 0
      [("age", .ofFields [("ge", .int 18), ("lt", .null)])] := by
    refine ⟨⟨.scalar (.ofField "age" .int), rfl, ?_⟩, trivial⟩
    intro entry hentry
    rcases List.mem_pair.mp hentry with rfl | rfl
    · exact ⟨.relation .gte, rfl, fun _ => ⟨_, rfl⟩⟩
    · exact ⟨.relation .lt, rfl, fun hnull => by cases hnull⟩
  have hfollowers : (Social.filters 1).Refuses Social.userFilter 1
      [("followers", .ofFields [("nickname", .ofFields [])])] (.depthExceeded 1) := by
    have hinTurn : Social.userFilter.inTurn
        [("followers", .ofFields [("nickname", .ofFields [])])] =
          [] ++ [("followers", .ofFields [("nickname", .ofFields [])])] := rfl
    exact .field (List.forall_mem_singleton.mpr rfl) hinTurn trivial rfl (.tooDeep rfl (by decide))
  have hknown : Social.userFilter.KnowsAll twoDescents.entries :=
    List.forall_mem_cons.mpr ⟨rfl, List.forall_mem_singleton.mpr rfl⟩
  have hinTurn : Social.userFilter.inTurn twoDescents.entries =
      [("age", .ofFields [("ge", .int 18), ("lt", .null)])] ++
        [("following",
          .ofFields [("followers", .ofFields [("nickname", .ofFields [])])])] := rfl
  exact .field hknown hinTurn hage rfl (.nested rfl (by decide) rfl hfollowers)

end Schema

end Filter

end GraphGateway
