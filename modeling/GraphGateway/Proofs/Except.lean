/-!
# Taking computations apart

What it means for a computation that may fail to have succeeded.
-/

namespace Except

variable {ε α β : Type}

theorem ok_bind (a : α) (f : α → Except ε β) : (ok a >>= f) = f a :=
  rfl

theorem bind_eq_ok {x : Except ε α} {f : α → Except ε β} {b : β} :
    x >>= f = .ok b ↔ ∃ a, x = .ok a ∧ f a = .ok b := by
  cases x with
  | error err =>
      constructor
      · intro h
        cases h
      · intro hfound
        rcases hfound with ⟨a, h, -⟩
        cases h
  | ok a =>
      constructor
      · intro h
        exact ⟨a, rfl, h⟩
      · intro hfound
        rcases hfound with ⟨_, ha, h⟩
        cases ha
        exact h

theorem bind_eq_error {x : Except ε α} {f : α → Except ε β} {err : ε} :
    x >>= f = .error err ↔ x = .error err ∨ ∃ a, x = .ok a ∧ f a = .error err := by
  cases x with
  | error e =>
      constructor
      · intro h
        cases h
        exact .inl rfl
      · intro hfailed
        rcases hfailed with h | ⟨a, h, -⟩
        · cases h
          rfl
        · cases h
  | ok a =>
      constructor
      · intro h
        exact .inr ⟨a, rfl, h⟩
      · intro hfailed
        rcases hfailed with h | ⟨_, ha, h⟩
        · cases h
        · cases ha
          exact h

theorem map_eq_ok {x : Except ε α} {f : α → β} {b : β} :
    x.map f = .ok b ↔ ∃ a, x = .ok a ∧ f a = b := by
  cases x with
  | error err => simp [Except.map]
  | ok a => simp [Except.map]

theorem map_eq_error {x : Except ε α} {f : α → β} {err : ε} :
    x.map f = .error err ↔ x = .error err := by
  cases x with
  | error e => simp [Except.map]
  | ok a => simp [Except.map]

theorem mapError_eq_ok {ε' : Type} {x : Except ε α} {f : ε → ε'} {a : α} :
    x.mapError f = .ok a ↔ x = .ok a := by
  constructor
  · intro h
    cases x <;> cases h
    rfl
  · intro h
    rw [h]
    rfl

theorem isOk_iff {x : Except ε α} : x.isOk = true ↔ ∃ a, x = .ok a := by
  cases x with
  | error e =>
      have hno : (error e : Except ε α).isOk = false := rfl
      simp [hno]
  | ok a =>
      have hyes : (ok a : Except ε α).isOk = true := rfl
      simp [hyes]

/-! ## One item after another -/

section Items

variable {f : α → Except ε β}

theorem mapM_cons_eq_ok {a : α} {rest : List α} {results : List β} :
    (a :: rest).mapM f = .ok results ↔
      ∃ b others, f a = .ok b ∧ rest.mapM f = .ok others ∧ results = b :: others := by
  rw [List.mapM_cons, bind_eq_ok]
  simp only [bind_eq_ok, pure, Except.pure, ok.injEq]
  constructor
  · rintro ⟨b, hb, others, hothers, rfl⟩
    exact ⟨b, others, hb, hothers, rfl⟩
  · rintro ⟨b, others, hb, hothers, rfl⟩
    exact ⟨b, hb, others, hothers, rfl⟩

theorem length_of_mapM {items : List α} {results : List β} (h : items.mapM f = .ok results) :
    results.length = items.length := by
  induction items generalizing results with
  | nil =>
      cases h
      rfl
  | cons a rest ih =>
      obtain ⟨b, others, -, hothers, rfl⟩ := mapM_cons_eq_ok.mp h
      rw [List.length_cons, List.length_cons, ih hothers]

theorem mapM_append_cons_eq_ok {before after : List α} {a : α} {results : List β} :
    (before ++ a :: after).mapM f = .ok results ↔
      ∃ front b back, before.mapM f = .ok front ∧ f a = .ok b ∧ after.mapM f = .ok back ∧
        results = front ++ b :: back := by
  induction before generalizing results with
  | nil =>
      rw [List.nil_append, mapM_cons_eq_ok]
      constructor
      · rintro ⟨b, back, hb, hback, rfl⟩
        exact ⟨[], b, back, rfl, hb, hback, rfl⟩
      · rintro ⟨front, b, back, hfront, hb, hback, rfl⟩
        cases hfront
        exact ⟨b, back, hb, hback, rfl⟩
  | cons first rest ih =>
      rw [List.cons_append, mapM_cons_eq_ok]
      simp only [ih, mapM_cons_eq_ok]
      constructor
      · rintro ⟨c, _, hc, ⟨front, b, back, hfront, hb, hback, rfl⟩, rfl⟩
        exact ⟨_, b, back, ⟨c, front, hc, hfront, rfl⟩, hb, hback, rfl⟩
      · rintro ⟨_, b, back, ⟨c, front, hc, hfront, rfl⟩, hb, hback, rfl⟩
        exact ⟨c, _, hc, ⟨front, b, back, hfront, hb, hback, rfl⟩, rfl⟩

/-- One item counts by its result only. -/
theorem mapM_append_cons_congr {a b : α} (h : f a = f b) (before after : List α) :
    (before ++ a :: after).mapM f = (before ++ b :: after).mapM f := by
  rw [List.mapM_append, List.mapM_append, List.mapM_cons, List.mapM_cons, h]

theorem mapM_eq_ok_map {g : α → β} {items : List α} :
    items.mapM f = .ok (items.map g) ↔ ∀ a ∈ items, f a = .ok (g a) := by
  induction items with
  | nil => simp [pure, Except.pure]
  | cons a rest ih =>
      rw [mapM_cons_eq_ok, List.forall_mem_cons, ← ih, List.map_cons]
      constructor
      · rintro ⟨b, others, hb, hothers, heq⟩
        obtain ⟨rfl, rfl⟩ := List.cons.inj heq
        exact ⟨hb, hothers⟩
      · intro h
        exact ⟨_, _, h.1, h.2, rfl⟩

end Items

/-! ## Results alone -/

theorem toOption_map (x : Except ε α) (f : α → β) : (x.map f).toOption = x.toOption.map f := by
  cases x <;> rfl

theorem toOption_mapError {ε' : Type} (x : Except ε α) (f : ε → ε') :
    (x.mapError f).toOption = x.toOption := by
  cases x <;> rfl

theorem isOk_map (x : Except ε α) (f : α → β) : (x.map f).isOk = x.isOk := by
  cases x <;> rfl

theorem isOk_eq_isSome (x : Except ε α) : x.isOk = x.toOption.isSome := by
  cases x <;> rfl

theorem toOption_eq_some {x : Except ε α} {a : α} : x.toOption = some a ↔ x = .ok a := by
  cases x with
  | error e => simp [Except.toOption]
  | ok b => simp [Except.toOption]

/-! ## Errors that cannot arise -/

theorem map_ne_error {x : Except ε α} {f : α → β} {err : ε} (h : x ≠ .error err) :
    x.map f ≠ .error err := by
  intro heq
  exact h (map_eq_error.mp heq)

theorem bind_ne_error {x : Except ε α} {f : α → Except ε β} {err : ε} (hx : x ≠ .error err)
    (hf : ∀ a, f a ≠ .error err) : x >>= f ≠ .error err := by
  cases x with
  | error e =>
      intro heq
      cases heq
      exact hx rfl
  | ok a => exact hf a

theorem mapM_ne_error {f : α → Except ε β} {err : ε} (hf : ∀ a, f a ≠ .error err)
    (items : List α) : items.mapM f ≠ .error err := by
  induction items with
  | nil => simp [pure, Except.pure]
  | cons a rest ih =>
      rw [List.mapM_cons]
      refine bind_ne_error (hf a) fun b => bind_ne_error ih fun others => ?_
      simp [pure, Except.pure]

end Except
