import GraphGateway.Proofs.OrderedMap
import GraphGateway.Proofs.Filter.Acceptance

/-!
# Registered filters

Vertex filters are built field by field and handed to a schema one by one, and
later bindings and registrations replace earlier ones. A schema is built exactly
if everything that is left refers to something that is left. From then on no
input, however deeply it is nested, leads to a filter that is not there.
-/

namespace GraphGateway

namespace Filter

/-! ## Definitions -/

/-- A vertex filter as it is written down: its fields in the order in which they were bound. -/
structure Definition where
  name : String
  label : String
  bindings : List (String × FieldFilter)

def Definition.filter (d : Definition) : VertexFilter :=
  d.bindings.foldl (fun f b => f.bind b.1 b.2) (.ofLabel d.name d.label)

/-- A binding of a field that no later one replaces. -/
def Definition.Binds (d : Definition) (b : String × FieldFilter) : Prop :=
  OrderedMap.IsLast Prod.fst d.bindings b

/-- A definition of a name that no later one replaces. -/
def Definition.Survives (definitions : List Definition) (d : Definition) : Prop :=
  OrderedMap.IsLast Definition.name definitions d

namespace VertexFilter

theorem find?_bind (f : VertexFilter) (field other : String) (filter : FieldFilter) :
    (f.bind field filter).find? other = if field = other then some filter else f.find? other := by
  unfold find? bind
  induction f.fields with
  | nil => simp [OrderedMap.lookup]
  | cons head rest ih =>
      obtain ⟨k, v⟩ := head
      by_cases hk : k = field
      · subst hk
        by_cases ho : k = other
        · simpa [OrderedMap.lookup, ho] using ih
        · simpa [OrderedMap.lookup, ho] using ih
      · by_cases ho : k = other
        · subst ho
          have hne : ¬ field = k := fun h => hk h.symm
          simp [OrderedMap.lookup, hk, hne]
        · simpa [OrderedMap.lookup, hk, ho] using ih

/-- No field is bound twice. -/
theorem nodup_bind {f : VertexFilter} (hf : (f.fields.map Prod.fst).Nodup) (field : String)
    (filter : FieldFilter) : ((f.bind field filter).fields.map Prod.fst).Nodup := by
  have hkept : ((f.fields.filter fun b => b.1 != field).map Prod.fst).Nodup :=
    hf.sublist (List.filter_sublist.map Prod.fst)
  have hnew : field ∉ (f.fields.filter fun b => b.1 != field).map Prod.fst := by simp
  simpa [bind, List.nodup_append] using hkept

end VertexFilter

namespace Definition

/-- What holds of a filter without fields and is kept by bindings holds of definitions. -/
theorem filter_induction {P : VertexFilter → Prop} (d : Definition)
    (hstart : P (.ofLabel d.name d.label))
    (hbind : ∀ f field filter, P f → P (f.bind field filter)) : P d.filter := by
  have hfold : ∀ (bindings : List (String × FieldFilter)) (f : VertexFilter), P f →
      P (bindings.foldl (fun f b => f.bind b.1 b.2) f) := by
    intro bindings
    induction bindings with
    | nil => exact fun f hf => hf
    | cons b rest ih => exact fun f hf => ih _ (hbind f b.1 b.2 hf)
  exact hfold d.bindings _ hstart

theorem name_filter (d : Definition) : d.filter.name = d.name :=
  d.filter_induction (P := fun f => f.name = d.name) rfl fun _ _ _ hf => hf

theorem nodup_filter (d : Definition) : (d.filter.fields.map Prod.fst).Nodup :=
  d.filter_induction (P := fun f => (f.fields.map Prod.fst).Nodup) List.nodup_nil
    fun _ field filter hf => VertexFilter.nodup_bind hf field filter

/-- The fields of a definition are its last bindings. -/
theorem mem_fields_filter (d : Definition) (b : String × FieldFilter) :
    b ∈ d.filter.fields ↔ d.Binds b := by
  have hfound := OrderedMap.found_after_foldl VertexFilter.find?
    (fun f (b : String × FieldFilter) field => f.find?_bind b.1 field b.2)
    (.ofLabel d.name d.label) d.bindings b.1 b.2
  have hnone : (VertexFilter.ofLabel d.name d.label).find? b.1 = none := rfl
  have hmem : b ∈ d.filter.fields ↔ d.filter.find? b.1 = some b.2 :=
    (OrderedMap.lookup_eq_some_iff_mem b.1 b.2 d.nodup_filter).symm
  rw [hmem, filter, hfound, hnone]
  constructor
  · intro h
    rcases h with ⟨other, hother, hfield, hfilter⟩ | ⟨h, -⟩
    · exact (Prod.ext hfield hfilter : other = b) ▸ hother
    · cases h
  · intro h
    exact .inl ⟨b, h, rfl, rfl⟩

end Definition

/-! ## Building a schema -/

namespace Schema

/-- Every filter that a field of a vertex filter refers to is there. -/
def Resolves (s : Schema) (f : VertexFilter) : Prop :=
  ∀ b ∈ f.fields, ∀ target, b.2.target? = some target → ∃ g, s.filters.get? target = some g

/-- Every filter that a filter of the schema refers to is there. -/
def Closed (s : Schema) : Prop :=
  ∀ name f, s.filters.get? name = some f → s.Resolves f

/-- The filters of a list by their names, before anything is checked. -/
def unchecked (filters : List VertexFilter) (maxDepth : Nat) : Schema :=
  ⟨.ofList (filters.map fun f => (f.name, f)), maxDepth⟩

theorem missingTarget?_eq_none_iff (s : Schema) (f : VertexFilter) :
    missingTarget? s.filters f.fields = none ↔ s.Resolves f := by
  simp only [missingTarget?, List.find?_eq_none, List.mem_filterMap, Resolves]
  constructor
  · intro h b hb target htarget
    have hcontains := h target ⟨b, hb, htarget⟩
    exact Option.ne_none_iff_exists'.mp (by simpa [OrderedMap.contains] using hcontains)
  · rintro h target ⟨b, hb, htarget⟩
    obtain ⟨g, hg⟩ := h b hb target htarget
    simp [OrderedMap.contains, hg]

theorem build_eq_ok_iff (filters : List VertexFilter) (maxDepth : Nat) (s : Schema) :
    build filters maxDepth = .ok s ↔
      s = unchecked filters maxDepth ∧ (unchecked filters maxDepth).Closed := by
  have hdistinct : (unchecked filters maxDepth).filters.Distinct := OrderedMap.Distinct.ofList _
  have hclosed : (unchecked filters maxDepth).filters.entries.findSome?
      (fun entry => missingTarget? (unchecked filters maxDepth).filters entry.2.fields) = none ↔
        (unchecked filters maxDepth).Closed := by
    rw [List.findSome?_eq_none_iff]
    simp only [missingTarget?_eq_none_iff, Closed, hdistinct.get?_eq_some_iff]
    exact ⟨fun h name f hf => h _ hf, fun h entry hentry => h entry.1 entry.2 hentry⟩
  rw [← hclosed, build]
  cases hmissing : (unchecked filters maxDepth).filters.entries.findSome?
      (fun entry => missingTarget? (unchecked filters maxDepth).filters entry.2.fields) with
  | some target =>
      have hbuild := hmissing
      simp only [unchecked] at hbuild
      simp [hbuild]
  | none =>
      have hbuild := hmissing
      simp only [unchecked] at hbuild
      simp [hbuild, unchecked, eq_comm]

theorem closed_of_build {filters : List VertexFilter} {maxDepth : Nat} {s : Schema}
    (h : build filters maxDepth = .ok s) : s.Closed := by
  obtain ⟨rfl, hclosed⟩ := (build_eq_ok_iff filters maxDepth s).mp h
  exact hclosed

theorem get?_unchecked (definitions : List Definition) (maxDepth : Nat) (name : String)
    (f : VertexFilter) :
    (unchecked (definitions.map Definition.filter) maxDepth).filters.get? name = some f ↔
      ∃ d, Definition.Survives definitions d ∧ d.name = name ∧ d.filter = f := by
  have hnames : (definitions.map Definition.filter).map (fun f => (f.name, f)) =
      definitions.map fun d => (d.name, d.filter) := by
    rw [List.map_map]
    exact List.map_congr_left fun d _ => by simp [d.name_filter]
  rw [unchecked, hnames]
  exact OrderedMap.get?_ofList_map Definition.name Definition.filter definitions name f

/-- A schema is built exactly if the fields that are left refer to definitions that are left. -/
theorem build_definitions (definitions : List Definition) (maxDepth : Nat) :
    (∃ s, build (definitions.map Definition.filter) maxDepth = .ok s) ↔
      ∀ d, Definition.Survives definitions d → ∀ b, d.Binds b → ∀ target,
        b.2.target? = some target → ∃ other, Definition.Survives definitions other ∧
          other.name = target := by
  simp only [build_eq_ok_iff, exists_and_right, exists_eq, true_and, Closed, Resolves,
    get?_unchecked]
  constructor
  · intro h d hd b hb target htarget
    obtain ⟨g, other, hother, hname, -⟩ :=
      h d.name d.filter ⟨d, hd, rfl, rfl⟩ b ((d.mem_fields_filter b).mpr hb) target htarget
    exact ⟨other, hother, hname⟩
  · intro h name f hf b hb target htarget
    obtain ⟨d, hd, -, rfl⟩ := hf
    obtain ⟨other, hother, hname⟩ := h d hd b ((d.mem_fields_filter b).mp hb) target htarget
    exact ⟨other.filter, other, hother, hname, rfl⟩

end Schema

/-! ## Look-ups while inputs are compiled -/

theorem ScalarFilter.compile_ne_unknownFilter (f : ScalarFilter) (entries : List (String × Json))
    (missing : String) : f.compile entries ≠ .error (.unknownFilter missing) := by
  rw [f.compile_eq, ne_eq, compileEach_eq_error_iff]
  rintro ⟨before, ⟨name, value⟩, after, -, -, h⟩
  rcases (operatorSteps_eq_error_iff ..).mp h with h | ⟨op, -, -, h⟩
  · unfold ScalarFilter.operator at h
    split at h <;> cases h
  · unfold ScalarFilter.predicate at h
    cases hbuild : op.build value f.kind.coerce <;> rw [hbuild] at h <;> cases h

/-- A filter that is not there can only be met where a field refers to it. -/
theorem compileBinding_ne_unknownFilter {descend : Descent} {missing : String}
    (b : VertexFilter.Binding)
    (hdescend : ∀ target, b.filter.target? = some target → ∀ nested,
      descend target nested ≠ .error (.unknownFilter missing)) :
    compileBinding descend b ≠ .error (.unknownFilter missing) := by
  obtain ⟨field, bound, value⟩ := b
  cases value with
  | object input =>
      cases bound with
      | scalar f => exact f.compile_ne_unknownFilter input.entries missing
      | vertex target => exact hdescend target rfl input
      | relationship direction label target =>
          exact Except.bind_ne_error (hdescend target rfl input) fun steps h => by cases h
  | _ => exact fun h => by cases h

theorem VertexFilter.compile_ne_unknownFilter {descend : Descent} {missing : String}
    (f : VertexFilter)
    (hdescend : ∀ b ∈ f.fields, ∀ target, b.2.target? = some target → ∀ nested,
      descend target nested ≠ .error (.unknownFilter missing)) (input : Fields) :
    f.compile descend input ≠ .error (.unknownFilter missing) := by
  intro h
  rcases Except.bind_eq_error.mp h with h | ⟨bindings, hbindings, h⟩
  · obtain ⟨known, field, value, rest, -, -, -, he⟩ := (f.resolve_eq_error_iff _ _).mp h
    cases he
  · obtain ⟨-, rfl⟩ := (f.resolve_eq_ok_iff _ _).mp hbindings
    rcases Except.bind_eq_error.mp h with h | ⟨steps, -, h⟩
    · rw [compileBindings_eq, compileEach_eq_error_iff] at h
      obtain ⟨before, b, after, hitems, -, h⟩ := h
      have hb : b ∈ input.entries.filterMap f.binding? := by
        rw [← mem_scalarsFirst, hitems]
        simp
      refine compileBinding_ne_unknownFilter b (fun target htarget => ?_) h
      obtain ⟨entry, -, hbinding⟩ := List.mem_filterMap.mp hb
      obtain ⟨filter, hfind, hsome⟩ := Option.bind_eq_some_iff.mp hbinding
      have hfilter : filter = b.filter := by
        split at hsome <;> cases hsome
        rfl
      exact hdescend _ (OrderedMap.mem_of_lookup hfind) target (hfilter ▸ htarget)
    · cases h

namespace Schema

theorem compileAt_ne_unknownFilter {s : Schema} (hs : s.Closed) (remaining : Nat)
    {f : VertexFilter} (hf : s.Resolves f) (input : Fields) (missing : String) :
    s.compileAt remaining f input ≠ .error (.unknownFilter missing) := by
  -- on the levels that are left; a descent leads to a filter of the schema, which resolves too
  induction remaining generalizing f input with
  | zero => exact f.compile_ne_unknownFilter (fun _ _ _ _ _ h => by cases h) input
  | succ remaining ih =>
      refine f.compile_ne_unknownFilter (fun b hb target htarget nested => ?_) input
      obtain ⟨g, hg⟩ := hf b hb target htarget
      simp only [get, hg]
      exact ih (hs target g hg) nested

theorem handle_eq_ok_iff (s : Schema) (name : String) (h : NamedFilter) :
    s.handle name = .ok h ↔ h = ⟨s, name⟩ ∧ ∃ f, s.filters.get? name = some f := by
  rw [handle, get, Except.bind_eq_ok]
  cases s.filters.get? name with
  | none => simp
  | some f => simp [eq_comm]

/-- The names that a schema has handles for are those of the definitions that are left. -/
theorem handle_unchecked (definitions : List Definition) (maxDepth : Nat) (name : String) :
    (∃ h, (unchecked (definitions.map Definition.filter) maxDepth).handle name = .ok h) ↔
      ∃ d, Definition.Survives definitions d ∧ d.name = name := by
  simp only [handle_eq_ok_iff, exists_and_right, exists_eq, true_and, get?_unchecked]
  constructor
  · intro h
    obtain ⟨f, d, hd, hname, -⟩ := h
    exact ⟨d, hd, hname⟩
  · intro h
    obtain ⟨d, hd, hname⟩ := h
    exact ⟨d.filter, d, hd, hname, rfl⟩

theorem handle_ne_unknownFilter {s : Schema} (hs : s.Closed) {name : String} {h : NamedFilter}
    (hhandle : s.handle name = .ok h) (t : Traversal) (input : Fields) (missing : String) :
    h.apply t input ≠ .error (.unknownFilter missing) := by
  obtain ⟨rfl, f, hf⟩ := (s.handle_eq_ok_iff name h).mp hhandle
  refine Except.map_ne_error ?_
  simp only [compile, get, hf]
  exact compileAt_ne_unknownFilter hs s.maxDepth (hs name f hf) input missing

/-- The check of a schema is complete: it is passed exactly if what is left refers only to what is
left, and no handle of a schema that passed it ever misses a filter. -/
theorem build_complete (definitions : List Definition) (maxDepth : Nat) :
    ((∃ s, build (definitions.map Definition.filter) maxDepth = .ok s) ↔
      ∀ d, Definition.Survives definitions d → ∀ b, d.Binds b → ∀ target,
        b.2.target? = some target → ∃ other, Definition.Survives definitions other ∧
          other.name = target) ∧
    ∀ s, build (definitions.map Definition.filter) maxDepth = .ok s → ∀ name,
      ((∃ h, s.handle name = .ok h) ↔ ∃ d, Definition.Survives definitions d ∧ d.name = name) ∧
      ∀ h, s.handle name = .ok h → ∀ (t : Traversal) (input : Fields) (missing : String),
        h.apply t input ≠ .error (.unknownFilter missing) := by
  refine ⟨build_definitions definitions maxDepth, fun s hs name => ⟨?_, fun h hhandle => ?_⟩⟩
  · obtain ⟨rfl, -⟩ := (build_eq_ok_iff _ _ _).mp hs
    exact handle_unchecked definitions maxDepth name
  · exact handle_ne_unknownFilter (closed_of_build hs) hhandle

/-- Users whose posts are bound twice, and posts that are registered twice. -/
def replacedDefinitions : List Definition :=
  [⟨"Post", "Draft", [("editor", .relationship (.along .incoming) "EDITED" "Editor")]⟩,
    ⟨"User", "User",
      [("posts", .relationship (.along .outgoing) "WROTE" "Article"), ("self", .vertex "User"),
        ("posts", .relationship (.along .outgoing) "WROTE" "Post")]⟩,
    ⟨"Post", "Post", [("author", .relationship (.along .incoming) "WROTE" "User")]⟩]

theorem build_complete_replaced :
    ∃ s h, build (replacedDefinitions.map Definition.filter) 8 = .ok s ∧
      s.handle "User" = .ok h ∧
      ∀ (t : Traversal) (input : Fields) (missing : String),
        h.apply t input ≠ .error (.unknownFilter missing) := by
  obtain ⟨s, h, hbuild, hhandle⟩ : ∃ s h,
      build (replacedDefinitions.map Definition.filter) 8 = .ok s ∧ s.handle "User" = .ok h :=
    ⟨_, _, rfl, rfl⟩
  have hname := (build_complete replacedDefinitions 8).2 s hbuild "User"
  exact ⟨s, h, hbuild, hhandle, hname.2 h hhandle⟩

end Schema

end Filter

end GraphGateway
