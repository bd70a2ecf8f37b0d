import GraphGateway.Evaluation.Run
import GraphGateway.Proofs.Graph.Walk

/-!
# Reasoning about effects

Ways to speak about a computation on a store. `Keeps` is about every store of a
kind: whatever happens, the store afterwards is of that kind again, and no
failure is about a vacant slot. The others are about one store: with `Leads` the
computation succeeds with a certain result and leads to a certain store, with
`Yields` it succeeds and leaves the store as it is, and with `Fails` it fails
before anything was written.
-/

namespace GraphGateway

namespace Eval

variable {α β : Type}

/-! ## Running -/

@[simp] theorem runOn_pure (a : α) (s : Store) : runOn (pure a) s = (.ok a, s) :=
  rfl

@[simp] theorem runOn_throw (err : EvaluationError) (s : Store) :
    runOn (throw err : Eval α) s = (.error err, s) :=
  rfl

theorem runOn_bind (e : Eval α) (f : α → Eval β) (s : Store) :
    runOn (e >>= f) s =
      match runOn e s with
      | (.ok a, next) => runOn (f a) next
      | (.error err, next) => (.error err, next) := by
  unfold runOn
  rw [ExceptT.run_bind, StateT.run_bind]
  cases h : e.run.run s with
  | mk outcome next => cases outcome <;> rfl

private theorem runOn_get_bind (f : Store → Eval α) (s : Store) :
    runOn (get >>= f) s = runOn (f s) s :=
  rfl

theorem runOn_look (read : Graph → Except EvaluationError α) (s : Store) :
    runOn (look read) s = (read s.graph, s) := by
  unfold look
  rw [runOn_get_bind]
  cases read s.graph <;> rfl

theorem runOn_change_write (write : Graph → Except EvaluationError (α × Graph)) (s : Store) :
    runOn (change .write write) s =
      match write s.graph with
      | .ok (a, graph) => (.ok a, { s with graph })
      | .error err => (.error err, s) := by
  unfold change
  simp only
  rw [runOn_get_bind]
  cases write s.graph <;> rfl

theorem runOn_fresh_write (s : Store) :
    runOn (fresh .write) s = (.ok s.ids.next.1, { s with ids := s.ids.next.2 }) :=
  rfl

/-! ## Invariants -/

/-- Whatever the outcome, the store stays of one kind, and no failure is about a vacant slot. -/
def Keeps (I : Store → Prop) (e : Eval α) : Prop :=
  ∀ s, I s → I (e.runOn s).2 ∧ ∀ err, (e.runOn s).1 = .error err → err.isOrdinary = true

variable {I : Store → Prop}

namespace Keeps

theorem pure (a : α) : Keeps I (pure a : Eval α) := by
  intro s hs
  exact ⟨hs, fun err h => by cases h⟩

theorem throw {err : EvaluationError} (h : err.isOrdinary = true) :
    Keeps I (throw err : Eval α) := by
  intro s hs
  refine ⟨hs, fun other ho => ?_⟩
  cases ho
  exact h

theorem bind {e : Eval α} {f : α → Eval β} (he : Keeps I e) (hf : ∀ a, Keeps I (f a)) :
    Keeps I (e >>= f) := by
  intro s hs
  obtain ⟨hnext, herr⟩ := he s hs
  rw [runOn_bind]
  cases h : runOn e s with
  | mk outcome next =>
      rw [h] at hnext herr
      cases outcome with
      | ok a => exact hf a next hnext
      | error err => exact ⟨hnext, fun other ho => by cases ho; exact herr err rfl⟩

theorem look {read : Graph → Except EvaluationError α}
    (h : ∀ s, I s → ∀ err, read s.graph = .error err → err.isOrdinary = true) :
    Keeps I (look read) := by
  intro s hs
  rw [runOn_look]
  exact ⟨hs, h s hs⟩

theorem change {access : Access} {write : Graph → Except EvaluationError (α × Graph)}
    (hok : access = .write → ∀ s a graph, I s → write s.graph = .ok (a, graph) →
      I { s with graph })
    (herr : ∀ s err, I s → write s.graph = .error err → err.isOrdinary = true) :
    Keeps I (change access write) := by
  intro s hs
  cases access with
  | read => exact ⟨hs, fun err h => by cases h; rfl⟩
  | write =>
      rw [runOn_change_write]
      cases h : write s.graph with
      | error err => exact ⟨hs, fun other ho => by cases ho; exact herr s err hs h⟩
      | ok found => exact ⟨hok rfl s found.1 found.2 hs h, fun err ho => by cases ho⟩

end Keeps

/-! ## Results -/

/-- The computation succeeds with a result and leaves the store as it is. -/
def Yields (e : Eval α) (s : Store) (a : α) : Prop :=
  e.runOn s = (.ok a, s)

namespace Yields

variable {s : Store}

theorem pure (a : α) : Yields (pure a : Eval α) s a :=
  rfl

theorem bind {e : Eval α} {f : α → Eval β} {a : α} {b : β} (he : Yields e s a)
    (hf : Yields (f a) s b) : Yields (e >>= f) s b := by
  unfold Yields at he hf ⊢
  rw [runOn_bind, he]
  exact hf

theorem look {read : Graph → Except EvaluationError α} {a : α} (h : read s.graph = .ok a) :
    Yields (look read) s a := by
  unfold Yields
  rw [runOn_look, h]

theorem collect_map {γ : Type} {g : γ → α} {f : α → Eval (List β)} {result : γ → List β}
    (items : List γ) (h : ∀ c ∈ items, Yields (f (g c)) s (result c)) :
    Yields (Eval.collect f (items.map g)) s (items.flatMap result) := by
  induction items with
  | nil => exact pure []
  | cons c rest ih =>
      have hfirst := h c List.mem_cons_self
      have hrest := ih fun d hd => h d (List.mem_cons_of_mem c hd)
      exact hfirst.bind (hrest.bind (pure _))

theorem each_singleton {f : α → Eval β} {a : α} {b : β} (h : Yields (f a) s b) :
    Yields (Eval.each f [a]) s [b] := by
  have hone : Yields (f a >>= fun b => Pure.pure [b]) s [b] := h.bind (pure [b])
  exact hone.bind (Yields.bind (pure []) (pure ([b] ++ [])))

theorem each_map {γ : Type} {g : γ → α} {f : α → Eval β} {result : γ → β} (items : List γ)
    (h : ∀ c ∈ items, Yields (f (g c)) s (result c)) :
    Yields (Eval.each f (items.map g)) s (items.map result) := by
  have hone : ∀ c ∈ items, Yields (f (g c) >>= fun b => Pure.pure [b]) s [result c] :=
    fun c hc => (h c hc).bind (pure [result c])
  have hall := collect_map (f := fun a => f a >>= fun b => Pure.pure [b]) items hone
  rwa [← List.map_eq_flatMap] at hall

end Yields

/-! ## Results and changes -/

/-- The computation succeeds with a result and leads to a certain store. -/
def Leads (e : Eval α) (s : Store) (a : α) (next : Store) : Prop :=
  e.runOn s = (.ok a, next)

theorem Yields.leads {e : Eval α} {s : Store} {a : α} (h : Yields e s a) : Leads e s a s :=
  h

namespace Leads

variable {s middle next : Store}

theorem bind {e : Eval α} {f : α → Eval β} {a : α} {b : β} (he : Leads e s a middle)
    (hf : Leads (f a) middle b next) : Leads (e >>= f) s b next := by
  unfold Leads at he hf ⊢
  rw [runOn_bind, he]
  exact hf

/-- What does not touch the store may be done to the result. -/
theorem map {e : Eval α} {a : α} (h : Leads e s a next) (f : α → β) :
    Leads (e >>= fun a => Pure.pure (f a)) s (f a) next :=
  h.bind (Yields.pure (f a)).leads

theorem fresh (s : Store) : Leads (fresh .write) s s.ids.next.1 { s with ids := s.ids.next.2 } :=
  runOn_fresh_write s

theorem change (write : Graph → Except EvaluationError (α × Graph)) {a : α} {graph : Graph}
    (h : write s.graph = .ok (a, graph)) : Leads (change .write write) s a { s with graph } := by
  unfold Leads
  rw [runOn_change_write, h]

theorem collect_singleton {f : α → Eval (List β)} {a : α} {results : List β}
    (h : Leads (f a) s results next) : Leads (Eval.collect f [a]) s results next := by
  have hall : Leads (f a >>= fun first => (Pure.pure [] : Eval (List β)) >>= fun others =>
      Pure.pure (first ++ others)) s (results ++ []) next :=
    h.bind (Yields.bind (Yields.pure []) (Yields.pure (results ++ []))).leads
  rwa [List.append_nil] at hall

theorem each_singleton {f : α → Eval β} {a : α} {b : β} (h : Leads (f a) s b next) :
    Leads (Eval.each f [a]) s [b] next :=
  collect_singleton (h.map fun b => [b])

end Leads

/-! ## What success tells -/

section Inversion

variable {s next : Store}

theorem leads_pure_iff {a b : α} : Leads (pure a : Eval α) s b next ↔ b = a ∧ next = s := by
  unfold Leads
  rw [runOn_pure, Prod.mk.injEq, Except.ok.injEq]
  exact and_congr eq_comm eq_comm

theorem not_leads_throw {err : EvaluationError} {a : α} :
    ¬ Leads (throw err : Eval α) s a next := by
  intro h
  cases h

theorem leads_bind_iff {e : Eval α} {f : α → Eval β} {b : β} :
    Leads (e >>= f) s b next ↔ ∃ a middle, Leads e s a middle ∧ Leads (f a) middle b next := by
  constructor
  · intro h
    unfold Leads at h
    rw [runOn_bind] at h
    cases he : runOn e s with
    | mk outcome middle =>
        rw [he] at h
        cases outcome with
        | error err => cases h
        | ok a => exact ⟨a, middle, he, h⟩
  · intro h
    obtain ⟨a, middle, he, hf⟩ := h
    exact he.bind hf

theorem leads_look_iff {read : Graph → Except EvaluationError α} {a : α} :
    Leads (look read) s a next ↔ read s.graph = .ok a ∧ next = s := by
  unfold Leads
  rw [runOn_look, Prod.mk.injEq]
  exact and_congr Iff.rfl eq_comm

/-- A change that succeeds has write access. -/
theorem leads_change {access : Access} {write : Graph → Except EvaluationError (α × Graph)} {a : α}
    (h : Leads (change access write) s a next) :
    ∃ graph, write s.graph = .ok (a, graph) ∧ next = { s with graph } := by
  cases access with
  | read => exact absurd h not_leads_throw
  | write =>
      unfold Leads at h
      rw [runOn_change_write] at h
      cases hwrite : write s.graph with
      | error err => rw [hwrite] at h; cases h
      | ok found =>
          obtain ⟨b, graph⟩ := found
          rw [hwrite] at h
          cases h
          exact ⟨graph, rfl, rfl⟩

/-- The same of a change without a result of its own. -/
theorem leads_change_unit {access : Access} {write : Graph → Except EvaluationError Graph}
    {u : Unit} (h : Leads (change access fun g => (write g).map ((), ·)) s u next) :
    ∃ graph, write s.graph = .ok graph ∧ next = { s with graph } := by
  obtain ⟨graph, hgraph, rfl⟩ := leads_change h
  cases hwrite : write s.graph with
  | error err => rw [hwrite] at hgraph; cases hgraph
  | ok written =>
      rw [hwrite] at hgraph
      cases hgraph
      exact ⟨graph, rfl, rfl⟩

namespace Leads

theorem keeps {I : Store → Prop} {e : Eval α} {a : α} (h : Leads e s a next) (he : e.Keeps I)
    (hs : I s) : I next := by
  have hnext := (he s hs).1
  rwa [h] at hnext

section Collecting

variable {f : α → Eval (List β)} {items : List α} {out : List β}

theorem collect_cons {a : α} (h : Leads (Eval.collect f (a :: items)) s out next) :
    ∃ first others middle, Leads (f a) s first middle ∧
      Leads (Eval.collect f items) middle others next ∧ out = first ++ others := by
  obtain ⟨first, middle, hfirst, h⟩ := leads_bind_iff.mp h
  obtain ⟨others, last, hothers, h⟩ := leads_bind_iff.mp h
  obtain ⟨rfl, rfl⟩ := leads_pure_iff.mp h
  exact ⟨first, others, middle, hfirst, hothers, rfl⟩

/-- The store is left as the computation for the last item leaves it. -/
theorem collect_last (h : Leads (Eval.collect f items) s out next) (hne : items ≠ []) :
    ∃ a ∈ items, ∃ before last, Leads (f a) before last next ∧ last ⊆ out := by
  induction items generalizing s out with
  | nil => exact absurd rfl hne
  | cons a rest ih =>
      obtain ⟨first, others, middle, hfirst, hothers, rfl⟩ := collect_cons h
      cases rest with
      | nil =>
          obtain ⟨rfl, rfl⟩ := leads_pure_iff.mp hothers
          exact ⟨a, List.mem_cons_self, s, first, hfirst, List.subset_append_left first []⟩
      | cons b more =>
          obtain ⟨c, hc, before, last, hlast, hsubset⟩ := ih hothers (List.cons_ne_nil b more)
          exact ⟨c, List.mem_cons_of_mem a hc, before, last, hlast,
            List.subset_append_of_subset_right first hsubset⟩

/-- What the computation for one item lets out is let out in the end. What all computations keep of
the store holds between them and at both ends. -/
theorem collect_through {R : Store → Store → Prop} (hrefl : ∀ s, R s s)
    (htrans : ∀ s t u, R s t → R t u → R s u)
    (hf : ∀ a s first next, Leads (f a) s first next → R s next)
    (h : Leads (Eval.collect f items) s out next) :
    R s next ∧ ∀ a ∈ items, ∃ before after found,
      R s before ∧ Leads (f a) before found after ∧ R after next ∧ found ⊆ out := by
  induction items generalizing s out with
  | nil =>
      obtain ⟨-, rfl⟩ := leads_pure_iff.mp h
      exact ⟨hrefl _, by simp⟩
  | cons a rest ih =>
      obtain ⟨first, others, middle, hfirst, hothers, rfl⟩ := collect_cons h
      obtain ⟨hrest, hitems⟩ := ih hothers
      have hstep := hf a s first middle hfirst
      refine ⟨htrans _ _ _ hstep hrest, ?_⟩
      intro b hb
      rcases List.mem_cons.mp hb with rfl | hb
      · exact ⟨s, middle, first, hrefl s, hfirst, hrest, List.subset_append_left first others⟩
      · obtain ⟨before, after, found, hbefore, hfound, hafter, hsubset⟩ := hitems b hb
        exact ⟨before, after, found, htrans _ _ _ hstep hbefore, hfound, hafter,
          List.subset_append_of_subset_right first hsubset⟩

/-- Something comes out of a collection if something comes out for every item. -/
theorem collect_ne_nil (h : Leads (Eval.collect f items) s out next) (hne : items ≠ [])
    (hf : ∀ a s first next, Leads (f a) s first next → first ≠ []) : out ≠ [] := by
  obtain ⟨a, -, before, last, hlast, hsubset⟩ := collect_last h hne
  intro hout
  rw [hout] at hsubset
  exact hf a before last next hlast (List.subset_nil.mp hsubset)

theorem collect_eq_nil (h : Leads (Eval.collect f items) s out next)
    (hf : ∀ a s first next, Leads (f a) s first next → first = []) : out = [] := by
  induction items generalizing s out with
  | nil => exact (leads_pure_iff.mp h).1
  | cons a rest ih =>
      obtain ⟨first, others, middle, hfirst, hothers, rfl⟩ := collect_cons h
      rw [hf a s first middle hfirst, ih hothers, List.append_nil]

theorem each_ne_nil {f : α → Eval β} (h : Leads (Eval.each f items) s out next)
    (hne : items ≠ []) : out ≠ [] := by
  refine collect_ne_nil h hne fun a s first next hfirst => ?_
  obtain ⟨b, middle, -, hpure⟩ := leads_bind_iff.mp hfirst
  obtain ⟨rfl, -⟩ := leads_pure_iff.mp hpure
  exact List.cons_ne_nil b []

end Collecting

end Leads

end Inversion

/-! ## Failures -/

/-- The computation fails for a reason and leaves the store as it is. -/
def Fails (e : Eval α) (s : Store) (err : EvaluationError) : Prop :=
  e.runOn s = (.error err, s)

namespace Fails

variable {s : Store} {err : EvaluationError}

theorem throw (err : EvaluationError) (s : Store) : Fails (throw err : Eval α) s err :=
  rfl

theorem bind {e : Eval α} (h : Fails e s err) (f : α → Eval β) : Fails (e >>= f) s err := by
  unfold Fails at h ⊢
  rw [runOn_bind, h]

theorem after {e : Eval α} {f : α → Eval β} {a : α} (he : Yields e s a) (h : Fails (f a) s err) :
    Fails (e >>= f) s err := by
  unfold Fails at h ⊢
  rw [runOn_bind, he]
  exact h

end Fails

end Eval

end GraphGateway
