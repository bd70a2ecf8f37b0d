import GraphGateway.Proofs.OrderedMap
import GraphGateway.Proofs.Filter.Acceptance

/-!
# Filtering with and without a kind

A filter on a property of some kind and a filter without a schema are kept apart:
each has its own operators and its own reading of comparison values. For kinds
whose values are plain JSON the second one takes over whatever the first accepts
and appends the same steps. There is one name it does not know: `neq`, the other
name of `ne` for enumerations.
-/

namespace GraphGateway

namespace Filter

/-! ## Comparison values -/

/-- Whether comparison values of a kind stand for themselves. -/
def Kind.isPlain : Kind → Bool
  | id | string | int | boolean | enumeration => true
  | float | datetime => false

theorem expect_eq_ok {α : Type} {wanted : Wanted} {found : Json} {o : Option α} {a : α} :
    expect wanted found o = .ok a ↔ o = some a := by
  cases o <;> simp [expect]

/-- A plain kind reads a value, if it takes it at all, as any document is read. -/
theorem Kind.ofJson_of_coerce {kind : Kind} (hplain : kind.isPlain = true) {wanted : Json}
    {v : Value} (h : kind.coerce wanted = .ok v) : Value.ofJson wanted = v := by
  cases kind with
  | id =>
      cases wanted with
      | string s =>
          cases h
          rfl
      | int n =>
          by_cases hfits : Json.fitsInt64 n = true
          · have hv : Value.int (Int64.ofInt n) = v := by simpa [coerce, hfits] using h
            rw [← hv, Value.ofJson, Value.ofWhole, if_pos hfits]
          · simp [coerce, hfits] at h
      | _ => cases h
  | string | enumeration =>
      obtain ⟨s, hs, rfl⟩ := Except.map_eq_ok.mp h
      cases wanted with
      | string text =>
          cases hs
          rfl
      | _ => cases hs
  | int =>
      obtain ⟨n, hn, rfl⟩ := Except.map_eq_ok.mp h
      cases wanted with
      | int m =>
          have hword : (Json.int m).asInt64? = some n := expect_eq_ok.mp hn
          by_cases hfits : Json.fitsInt64 m = true
          · have hm : Int64.ofInt m = n := by simpa [Json.asInt64?, hfits] using hword
            rw [← hm, Value.ofJson, Value.ofWhole, if_pos hfits]
          · simp [Json.asInt64?, hfits] at hword
      | _ => cases hn
  | boolean =>
      obtain ⟨b, hb, rfl⟩ := Except.map_eq_ok.mp h
      cases wanted with
      | bool c =>
          cases hb
          rfl
      | _ => cases hb
  | float => cases hplain
  | datetime => cases hplain

section Coercions

variable {strict lenient : Json → Except Misfit Value}

theorem coerceEach_of_strict
    (hle : ∀ wanted v, strict wanted = .ok v → lenient wanted = .ok v) {items : List Json}
    {values : List Value} (h : coerceEach strict items = .ok values) :
    coerceEach lenient items = .ok values := by
  induction items generalizing values with
  | nil => exact h
  | cons item rest ih =>
      cases hitem : strict item with
      | error e => simp [coerceEach, hitem] at h
      | ok v =>
          rw [coerceEach, hitem] at h
          obtain ⟨others, hothers, rfl⟩ := Except.map_eq_ok.mp h
          rw [coerceEach, hle item v hitem]
          exact Except.map_eq_ok.mpr ⟨others, ih hothers, rfl⟩

/-- A coercion that takes more values, and reads those of another one alike, builds the same
predicates from them. -/
theorem Operator.build_of_strict
    (hle : ∀ wanted v, strict wanted = .ok v → lenient wanted = .ok v) {op : Operator}
    {wanted : Json} {p : Predicate} (h : op.build wanted strict = .ok p) :
    op.build wanted lenient = .ok p := by
  cases op with
  | relation r =>
      obtain ⟨v, hv, rfl⟩ := Except.map_eq_ok.mp h
      exact Except.map_eq_ok.mpr ⟨v, hle wanted v hv, rfl⟩
  | member | notMember =>
      obtain ⟨items, hitems, h⟩ := Except.bind_eq_ok.mp h
      obtain ⟨values, hvalues, rfl⟩ := Except.map_eq_ok.mp h
      exact Except.bind_eq_ok.mpr ⟨items, hitems,
        Except.map_eq_ok.mpr ⟨values, coerceEach_of_strict hle hvalues, rfl⟩⟩
  | text negated place => exact h

end Coercions

/-! ## Operators -/

/-- The only name that some kind knows and the operators without a kind lack. -/
def enumerationAlias : String :=
  "neq"

theorem untypedOperators_nodup : (untypedOperators.map Prod.fst).Nodup := by
  decide

theorem Kind.operators_untyped (kind : Kind) :
    ∀ entry ∈ kind.operators, entry.1 = enumerationAlias ∨ entry ∈ untypedOperators := by
  cases kind <;> decide

theorem Kind.find?_untyped {kind : Kind} {name : String} {op : Operator}
    (h : kind.operators.find? name = some op) (hname : name ≠ enumerationAlias) :
    untypedOperators.find? name = some op := by
  have hmem := (kind.operators_untyped (name, op) (OrderedMap.mem_of_lookup h)).resolve_left hname
  exact (OrderedMap.lookup_eq_some_iff_mem name op untypedOperators_nodup).mpr hmem

/-- Only enumerations know it. -/
theorem Kind.eq_enumeration_of_find? {kind : Kind} {op : Operator}
    (h : kind.operators.find? enumerationAlias = some op) : kind = .enumeration := by
  cases kind with
  | enumeration => rfl
  | _ => cases h

/-! ## Inputs -/

section Steps

variable {field : String} {kind : Kind}

theorem Untyped.operatorSteps_of_typed (hplain : kind.isPlain = true) {name : String}
    (hname : name ≠ enumerationAlias) {wanted : Json} {steps : List Step}
    (h : operatorSteps (.name field) (ScalarFilter.onProperty field kind).operator
      (ScalarFilter.onProperty field kind).predicate (name, wanted) = .ok steps) :
    operatorSteps (.name field) (operator field) (predicate field) (name, wanted) = .ok steps := by
  obtain ⟨op, hop, h⟩ := Except.bind_eq_ok.mp h
  have hfind : kind.operators.find? name = some op := by
    unfold ScalarFilter.operator at hop
    split at hop
    · next found hfound =>
        cases hop
        exact hfound
    · cases hop
  have huntyped : operator field name = .ok op := by
    simp [operator, Kind.find?_untyped hfind hname]
  refine Except.bind_eq_ok.mpr ⟨op, huntyped, ?_⟩
  cases hnull : wanted.isNull with
  | true => simpa [hnull] using h
  | false =>
      rw [hnull, if_neg Bool.false_ne_true] at h
      rw [if_neg Bool.false_ne_true]
      obtain ⟨p, hp, h⟩ := Except.bind_eq_ok.mp h
      have hbuild : op.build wanted kind.coerce = .ok p := Except.mapError_eq_ok.mp hp
      have hsame : op.build wanted (fun j => .ok (Value.ofJson j)) = .ok p :=
        Operator.build_of_strict
          (fun j v hv => congrArg Except.ok (Kind.ofJson_of_coerce hplain hv)) hbuild
      exact Except.bind_eq_ok.mpr ⟨p, Except.mapError_eq_ok.mpr hsame, h⟩

/-- Without a kind, the operators that a plain kind accepts come to the same steps, up to the first
one under the name that is not known. -/
theorem Untyped.compileOperators_of_typed (hplain : kind.isPlain = true)
    {entries : List (String × Json)} {steps : List Step}
    (h : (ScalarFilter.onProperty field kind).compile entries = .ok steps) :
    compileOperators field entries =
      if enumerationAlias ∈ entries.map Prod.fst then
        .error (.unknownUntypedOperator field enumerationAlias)
      else .ok steps := by
  rw [ScalarFilter.compile_eq] at h
  rw [compileOperators_eq]
  induction entries generalizing steps with
  | nil =>
      cases h
      rfl
  | cons entry rest ih =>
      obtain ⟨name, wanted⟩ := entry
      obtain ⟨first, hfirst, h⟩ := Except.bind_eq_ok.mp h
      obtain ⟨more, hmore, h⟩ := Except.bind_eq_ok.mp h
      cases h
      by_cases hname : name = enumerationAlias
      · subst hname
        have hunknown : operatorSteps (.name field) (operator field) (predicate field)
            (enumerationAlias, wanted) =
              .error (.unknownUntypedOperator field enumerationAlias) := rfl
        have hmem : enumerationAlias ∈ ((enumerationAlias, wanted) :: rest).map Prod.fst :=
          List.mem_cons_self
        rw [compileEach, hunknown, if_pos hmem]
        rfl
      · have hsteps := operatorSteps_of_typed hplain hname hfirst
        have hmem : enumerationAlias ∈ ((name, wanted) :: rest).map Prod.fst ↔
            enumerationAlias ∈ rest.map Prod.fst := by
          simp [Ne.symm hname]
        rw [compileEach, hsteps, Except.ok_bind, ih hmore]
        by_cases hrest : enumerationAlias ∈ rest.map Prod.fst
        · rw [if_pos hrest, if_pos (hmem.mpr hrest)]
          rfl
        · rw [if_neg hrest, if_neg fun hm => hrest (hmem.mp hm)]
          rfl

end Steps

theorem ScalarFilter.operator_of_compile (f : ScalarFilter) {entries : List (String × Json)}
    {steps : List Step} (h : f.compile entries = .ok steps) :
    ∀ name ∈ entries.map Prod.fst, ∃ op, f.kind.operators.find? name = some op := by
  rw [f.compile_eq] at h
  have hall := ((compileEach_eq_ok_iff _ _ _).mp h).1
  intro name hname
  obtain ⟨⟨_, wanted⟩, hentry, rfl⟩ := List.mem_map.mp hname
  obtain ⟨found, hfound⟩ := Except.isOk_iff.mp (hall _ hentry)
  obtain ⟨op, hop, -⟩ := Except.bind_eq_ok.mp hfound
  unfold operator at hop
  split at hop
  · next other hother => exact ⟨other, hother⟩
  · cases hop

/-- What a filter on a property accepts for a kind of plain values, a filter without a schema
accepts for a field of that name, with the same traversal for an outcome. It is otherwise only where
an enumeration is compared under the name that is its own: that operator is then refused, whatever
it is compared with. -/
theorem untyped_agrees (field : String) {kind : Kind} (hplain : kind.isPlain = true)
    {t r : Traversal} {operators : Fields}
    (h : (ScalarFilter.onProperty field kind).apply t operators = .ok r) :
    (Untyped.apply t (.ofList [(field, .object operators)]) =
      if "neq" ∈ operators.keys then .error (.unknownUntypedOperator field "neq") else .ok r) ∧
    ("neq" ∈ operators.keys → kind = .enumeration) := by
  obtain ⟨steps, hsteps, rfl⟩ := Except.map_eq_ok.mp h
  refine ⟨?_, fun hneq => ?_⟩
  · have hcompile : Untyped.compile (OrderedMap.ofList [(field, Json.object operators)]).entries =
        Untyped.compileOperators field operators.entries >>= fun steps => .ok (steps ++ []) := rfl
    unfold Untyped.apply
    rw [hcompile, Untyped.compileOperators_of_typed hplain hsteps]
    by_cases hneq : "neq" ∈ operators.keys
    · rw [if_pos hneq, if_pos (show enumerationAlias ∈ operators.entries.map Prod.fst from hneq)]
      rfl
    · rw [if_neg hneq, if_neg (show enumerationAlias ∉ operators.entries.map Prod.fst from hneq),
        Except.ok_bind, List.append_nil]
      rfl
  · obtain ⟨op, hop⟩ := ScalarFilter.operator_of_compile _ hsteps "neq" hneq
    exact Kind.eq_enumeration_of_find? hop

/-- A status is neither archived nor one of two others; nothing is asked about a third one. -/
def openStatus : Fields :=
  .ofList [("ne", .string "archived"), ("not_in", .array [.string "closed", .string "merged"]),
    ("eq", .null)]

theorem untyped_agrees_openStatus :
    Untyped.apply (.root [.vertices []]) (.ofList [("status", .object openStatus)]) =
      .ok (.root
        [.vertices [], .has (.name "status") (.relation .neq (.string "archived")),
          .has (.name "status") (.without [.string "closed", .string "merged"])]) := by
  have hplain : Kind.enumeration.isPlain = true := rfl
  have htyped : (ScalarFilter.onProperty "status" .enumeration).apply (.root [.vertices []])
      openStatus = .ok _ := rfl
  have hknown : "neq" ∉ openStatus.keys := by decide
  rw [(untyped_agrees "status" hplain htyped).1, if_neg hknown]
  rfl

/-- The other name of `ne` is accepted for an enumeration and refused without a kind. -/
theorem untyped_refuses_neq :
    (ScalarFilter.onProperty "status" .enumeration).apply (.root [.vertices []])
        (.ofList [("neq", .string "archived")]) =
      .ok (.root [.vertices [], .has (.name "status") (.relation .neq (.string "archived"))]) ∧
    Untyped.apply (.root [.vertices []])
        (.ofList [("status", .ofFields [("neq", .string "archived")])]) =
      .error (.unknownUntypedOperator "status" "neq") := by
  exact ⟨rfl, rfl⟩

end Filter

end GraphGateway
