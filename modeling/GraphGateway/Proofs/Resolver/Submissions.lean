import GraphGateway.Dispatch
import GraphGateway.Resolver.Pipeline

/-!
# Submissions

What sessions add to the trace of a run. A session adds the traversals that it
submits and nothing else; the session of a pipeline submits one at most, and none
when its plan fails.
-/

namespace GraphGateway

/-- Whether an invocation is turned down because of its arguments or its filter. -/
def ResolverError.isRejection : ResolverError → Bool
  | argument _ => true
  | filter _ => true
  | _ => false

namespace Session

variable {σ : Type}

theorem carryOut_trace {α : Type} (c : Connection σ) (session : Session α) (r : Run σ) :
    ∃ ts : List Traversal, (session.carryOut c r).2.trace = r.trace ++ ts.map .submitted := by
  induction session generalizing r with
  | done answer => exact ⟨[], by simp [carryOut]⟩
  | submit t next ih =>
      obtain ⟨ts, hts⟩ := ih (c t r.world).1
        (({ r with world := (c t r.world).2 } : Run σ).note (.submitted t))
      exact ⟨t :: ts, by simpa [carryOut, Run.note] using hts⟩

/-- A plan that works out is submitted; reading its outcome never turns the invocation down. -/
theorem ofPlan_submissions {α β : Type} (plan : Except ResolverError (α × Traversal))
    (read : α → List Value → Except ResolverError β)
    (hread : ∀ context results e, read context results = .error e → e.isRejection = false)
    (c : Connection σ) (r : Run σ) :
    ∃ ts : List Traversal,
      ((ofPlan plan read).carryOut c r).2.trace = r.trace ++ ts.map .submitted ∧
      ts.length ≤ 1 ∧ (∀ e, plan = .error e → ts = []) ∧
      ∀ e, ((ofPlan plan read).carryOut c r).1 = .error e → e.isRejection = true →
        ts = [] := by
  cases plan with
  | error e => exact ⟨[], by simp [ofPlan, carryOut], Nat.zero_le 1, fun _ _ => rfl,
      fun _ _ _ => rfl⟩
  | ok pair =>
      rcases pair with ⟨context, t⟩
      have hrun : ((ofPlan (.ok (context, t)) read).carryOut c r).2.trace =
            r.trace ++ [.submitted t] ∧
          ∀ e, ((ofPlan (.ok (context, t)) read).carryOut c r).1 = .error e →
            e.isRejection = false := by
        simp only [ofPlan, carryOut]
        cases (c t r.world).1 with
        | error e =>
            refine ⟨rfl, fun err herr => ?_⟩
            cases herr
            rfl
        | ok results => exact ⟨rfl, hread context results⟩
      refine ⟨[t], hrun.1, Nat.le_refl 1, fun e hplan => ?_, fun e he hrejection => ?_⟩
      · cases hplan
      · rw [hrun.2 e he] at hrejection
        cases hrejection

end Session

/-! ## Pipelines -/

/-- The resolvers that are made of parts. -/
inductive Pipeline where
  | list (p : ListPipeline)
  | single (p : SinglePipeline)
  | calculated (p : CalculatedPipeline)
  | mutation (p : MutationPipeline)

namespace Pipeline

def base : Pipeline → Base
  | list p => p.base
  | single p => p.base
  | calculated p => p.base
  | mutation p => p.base

def resolve : Pipeline → Resolver
  | list p => p.resolve
  | single p => p.resolve
  | calculated p => p.resolve
  | mutation p => p.resolve

end Pipeline

section Plans

variable {i : Invocation} {fresh : ElementId} {e : ResolverError}

theorem ListPipeline.plan_error (p : ListPipeline) (h : p.base i fresh = .error e) :
    ∃ err, p.plan i fresh = .error err := by
  unfold plan selected
  rw [h]
  cases i.filterInput with
  | error err => exact ⟨.argument err, rfl⟩
  | ok input =>
      cases i.pagination with
      | error err => exact ⟨.argument err, rfl⟩
      | ok pagination => exact ⟨e, rfl⟩

theorem SinglePipeline.narrowed_error (p : SinglePipeline) (h : p.base i fresh = .error e) :
    p.narrowed i fresh = .error e := by
  unfold narrowed
  rw [h]
  rfl

end Plans

theorem ListPipeline.read_error (p : ListPipeline) (pagination : Pagination)
    (results : List Value) (e : ResolverError) (h : p.read pagination results = .error e) :
    e.isRejection = false := by
  unfold read at h
  split at h
  · cases hpage : readPage pagination results with
    | error fault =>
        rw [hpage] at h
        cases h
        rfl
    | ok page =>
        rw [hpage] at h
        cases h
  · cases h

/-- Every pipeline is a plan that its base may refuse and a reading that rejects nothing. -/
theorem Pipeline.resolve_plan (p : Pipeline) (i : Invocation) (fresh : ElementId) :
    ∃ (α : Type) (plan : Except ResolverError (α × Traversal))
      (read : α → List Value → Except ResolverError Json),
      p.resolve i fresh = .ofPlan plan read ∧
      (∀ e, p.base i fresh = .error e → ∃ err, plan = .error err) ∧
      ∀ context results e, read context results = .error e → e.isRejection = false := by
  cases p with
  | list p => exact ⟨_, p.plan i fresh, p.read, rfl, fun e he => p.plan_error he, p.read_error⟩
  | single p =>
      refine ⟨_, _, _, rfl, fun e he => ⟨e, ?_⟩, fun _ _ e hread => ?_⟩
      · rw [p.narrowed_error he]
        rfl
      · cases hread
  | calculated p | mutation p =>
      refine ⟨_, _, _, rfl, fun e he => ⟨e, ?_⟩, fun _ results e hread => ?_⟩
      · rw [show p.base i fresh = .error e from he]
        rfl
      · split at hread
        · cases hread
        · cases hread
          rfl

theorem Pipeline.resolve_submissions {σ : Type} (p : Pipeline) (i : Invocation)
    (fresh : ElementId) (c : Connection σ) (r : Run σ) :
    ∃ ts : List Traversal,
      ((p.resolve i fresh).carryOut c r).2.trace = r.trace ++ ts.map .submitted ∧
      ts.length ≤ 1 ∧ (∀ e, p.base i fresh = .error e → ts = []) ∧
      ∀ e, ((p.resolve i fresh).carryOut c r).1 = .error e → e.isRejection = true → ts = [] := by
  obtain ⟨α, plan, read, hresolve, hbase, hread⟩ := p.resolve_plan i fresh
  obtain ⟨ts, htrace, hone, hplan, hrejected⟩ := Session.ofPlan_submissions plan read hread c r
  rw [hresolve]
  refine ⟨ts, htrace, hone, fun e he => ?_, hrejected⟩
  obtain ⟨err, herr⟩ := hbase e he
  exact hplan err herr

end GraphGateway
