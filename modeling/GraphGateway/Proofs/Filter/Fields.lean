import GraphGateway.Filter.Schema
import GraphGateway.Proofs.Except

/-!
# Fields of an input

How the fields of an input find their sub-filters. Either all of them are known,
and those that do not hold `null` are bound in input order, or the first one that
is not known is the error.
-/

namespace GraphGateway

namespace Filter

namespace VertexFilter

/-- The binding of a field that is known and does not hold `null`. -/
def binding? (f : VertexFilter) (entry : String × Json) : Option Binding :=
  (f.find? entry.1).bind fun filter =>
    if entry.2.isNull then none else some ⟨entry.1, filter, entry.2⟩

theorem resolve_eq_ok_iff (f : VertexFilter) (entries : List (String × Json))
    (bindings : List Binding) :
    f.resolve entries = .ok bindings ↔
      (∀ entry ∈ entries, (f.find? entry.1).isSome = true) ∧
        bindings = entries.filterMap f.binding? := by
  induction entries generalizing bindings with
  | nil =>
      constructor
      · intro h
        cases h
        exact ⟨by simp, rfl⟩
      · intro h
        rw [h.2]
        rfl
  | cons head rest ih =>
      obtain ⟨field, value⟩ := head
      rw [resolve, List.forall_mem_cons, List.filterMap_cons, binding?]
      cases hfind : f.find? field with
      | none => simp
      | some filter =>
          simp only [Except.bind_eq_ok, ih, Option.isSome_some, true_and, Option.bind_some]
          constructor
          · intro h
            obtain ⟨_, ⟨hknown, rfl⟩, h⟩ := h
            cases h
            cases value.isNull <;> exact ⟨hknown, rfl⟩
          · intro h
            obtain ⟨hknown, rfl⟩ := h
            refine ⟨_, ⟨hknown, rfl⟩, ?_⟩
            cases value.isNull <;> rfl

/-- The error is that of the first field that is not known. -/
theorem resolve_eq_error_iff (f : VertexFilter) (entries : List (String × Json))
    (e : FilterError) :
    f.resolve entries = .error e ↔
      ∃ known field value rest, entries = known ++ (field, value) :: rest ∧
        (∀ entry ∈ known, (f.find? entry.1).isSome = true) ∧ f.find? field = none ∧
          e = .unknownField f.name field := by
  induction entries with
  | nil => simp [resolve]
  | cons head rest ih =>
      obtain ⟨field, value⟩ := head
      rw [resolve]
      cases hfind : f.find? field with
      | none =>
          constructor
          · intro h
            cases h
            exact ⟨[], field, value, rest, rfl, by simp, hfind, rfl⟩
          · intro h
            obtain ⟨known, other, v, more, hentries, hknown, -, rfl⟩ := h
            cases known with
            | nil =>
                cases hentries
                rfl
            | cons first known =>
                cases hentries
                simp [hfind] at hknown
      | some filter =>
          constructor
          · intro h
            have hrest : f.resolve rest = .error e := by simpa [Except.bind_eq_error] using h
            obtain ⟨known, other, v, more, rfl, hknown, hfault⟩ := ih.mp hrest
            refine ⟨(field, value) :: known, other, v, more, rfl, ?_, hfault⟩
            exact List.forall_mem_cons.mpr ⟨by simp [hfind], hknown⟩
          · intro h
            obtain ⟨known, other, v, more, hentries, hknown, hfault⟩ := h
            cases known with
            | nil =>
                cases hentries
                simp [hfind] at hfault
            | cons first known =>
                cases hentries
                have hrest := ih.mpr
                  ⟨known, other, v, more, rfl, (List.forall_mem_cons.mp hknown).2, hfault⟩
                exact Except.bind_eq_error.mpr (.inl hrest)

/-- All fields are known, and what is asked of their bindings holds. -/
theorem resolve_forall (f : VertexFilter) (P : Binding → Prop) (entries : List (String × Json)) :
    (∃ bindings, f.resolve entries = .ok bindings ∧ ∀ b ∈ bindings, P b) ↔
      ∀ entry ∈ entries, ∃ bound, f.find? entry.1 = some bound ∧
        (entry.2.isNull = false → P ⟨entry.1, bound, entry.2⟩) := by
  have hentry : ∀ entry : String × Json,
      (f.find? entry.1).isSome = true ∧ (∀ b, f.binding? entry = some b → P b) ↔
        ∃ bound, f.find? entry.1 = some bound ∧
          (entry.2.isNull = false → P ⟨entry.1, bound, entry.2⟩) := by
    intro entry
    rw [binding?]
    cases f.find? entry.1 with
    | none => simp
    | some bound => cases entry.2.isNull <;> simp
  simp only [resolve_eq_ok_iff, and_assoc, exists_and_left, exists_eq_left, ← hentry,
    List.mem_filterMap, forall_exists_index, and_imp, forall_and]
  exact and_congr_right fun _ => ⟨fun h entry hm b hb => h b entry hm hb,
    fun h b entry hm hb => h entry hm b hb⟩

theorem mem_scalarsFirst (bindings : List Binding) (b : Binding) :
    b ∈ scalarsFirst bindings ↔ b ∈ bindings := by
  simp only [scalarsFirst, List.mem_append, List.mem_filter]
  cases b.filter.isScalar <;> simp

end VertexFilter

end Filter

end GraphGateway
