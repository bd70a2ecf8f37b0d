import GraphGateway.Proofs.Dispatch.Runs
import GraphGateway.Proofs.Filter.Compile

/-!
# Resolvers that only read

A resolver whose base, filter and selection add no step that writes leaves the
graph as it is, whatever the arguments of the invocation and wherever it fails.
-/

namespace GraphGateway

/-- Carried out over any graph in memory, the resolver leaves the store as it is. -/
def Resolver.Reads (resolver : Resolver) : Prop :=
  ∀ (i : Invocation) (fresh : ElementId) (r : Run Store), r.world.graph.WellFormed →
    ((resolver i fresh).carryOut Provider.evaluate r).2.world = r.world

def Base.Reads (base : Base) : Prop :=
  ∀ (i : Invocation) (fresh : ElementId) (t : Traversal), base i fresh = .ok t →
    t.isMutating = false

def Narrowing.Reads (narrow : Narrowing) : Prop :=
  ∀ (t : Traversal) (input : Fields) (narrowed : Traversal), narrow t input = .ok narrowed →
    narrowed.isMutating = t.isMutating

theorem Filter.Schema.apply_reads (schema : Schema) (name : String) :
    Narrowing.Reads (schema.apply name) := by
  intro t input narrowed h
  obtain ⟨steps, hsteps, rfl⟩ := Except.map_eq_ok.mp h
  have hnarrows := schema.compile_narrows (s := Store.start Store.unary) .empty hsteps
  rw [Traversal.isMutating_extend, hnarrows.reads_only, Bool.or_false]

theorem isMutating_recordSelection (t : Traversal) :
    (recordSelection t).isMutating = t.isMutating := by
  have hsteps : Step.anyMutation
      [.valueMap true [], .modulator .shape (.anonymous [.unfold])] = false := rfl
  rw [recordSelection, Traversal.isMutating_extend, hsteps, Bool.or_false]

theorem isMutating_firstOf (t : Traversal) : (firstOf t).isMutating = t.isMutating := by
  have hfirst : firstOf t = t.extend [.limit 1] := rfl
  have hsteps : Step.anyMutation [.limit 1] = false := rfl
  rw [hfirst, Traversal.isMutating_extend, hsteps, Bool.or_false]

theorem isMutating_paged (p : Pagination) (t : Traversal) :
    (paged p t).isMutating = t.isMutating := by
  unfold paged
  rw [Traversal.isMutating_extend]
  exact Bool.or_false _

theorem Session.ofPlan_reads {α : Type} {plan : Except ResolverError (α × Traversal)}
    (h : ∀ context t, plan = .ok (context, t) → t.isMutating = false)
    (read : α → List Value → Except ResolverError Json) {r : Run Store}
    (hw : r.world.graph.WellFormed) :
    ((ofPlan plan read).carryOut Provider.evaluate r).2.world = r.world := by
  cases plan with
  | error e => rfl
  | ok pair =>
      rw [carryOut_plan]
      exact Store.submit_unchanged hw (h pair.1 pair.2 rfl)

theorem ListPipeline.resolve_reads (p : ListPipeline) (hbase : Base.Reads p.base)
    (hfilter : Narrowing.Reads p.filter)
    (hselection : ∀ t, (p.selection t).isMutating = t.isMutating) :
    Resolver.Reads p.resolve := by
  intro i fresh r hw
  refine Session.ofPlan_reads (fun pagination t hplan => ?_) p.read hw
  obtain ⟨input, -, hplan⟩ := Except.bind_eq_ok.mp hplan
  obtain ⟨page, -, hplan⟩ := Except.bind_eq_ok.mp hplan
  obtain ⟨selected, hselected, hplan⟩ := Except.bind_eq_ok.mp hplan
  obtain ⟨base, hb, hselected⟩ := Except.bind_eq_ok.mp hselected
  obtain ⟨filtered, hf, hselected⟩ := Except.bind_eq_ok.mp hselected
  have hfiltered := Except.mapError_eq_ok.mp hf
  have hreads : selected.isMutating = false := by
    cases hselected
    rw [hselection, hfilter base input filtered hfiltered, hbase i fresh base hb]
  cases hplan
  split
  · rw [isMutating_paged, hreads]
  · exact hreads

theorem SinglePipeline.resolve_reads (p : SinglePipeline) (hbase : Base.Reads p.base)
    (hfilter : ∀ narrow, p.filter = some narrow → Narrowing.Reads narrow)
    (hselection : ∀ t, (p.selection t).isMutating = t.isMutating) :
    Resolver.Reads p.resolve := by
  intro i fresh r hw
  refine Session.ofPlan_reads (fun context t hplan => ?_) _ hw
  obtain ⟨narrowed, hnarrowed, hpair⟩ := Except.map_eq_ok.mp hplan
  obtain ⟨base, hb, hnarrowed⟩ := Except.bind_eq_ok.mp hnarrowed
  have hreads : narrowed.isMutating = false := by
    cases hf : p.filter with
    | none =>
        rw [hf] at hnarrowed
        obtain rfl := Except.ok.inj hnarrowed
        exact hbase i fresh _ hb
    | some narrow =>
        rw [hf] at hnarrowed
        obtain ⟨input, -, hnarrowed⟩ := Except.bind_eq_ok.mp hnarrowed
        have hnarrow := Except.mapError_eq_ok.mp hnarrowed
        rw [hfilter narrow hf base input narrowed hnarrow, hbase i fresh base hb]
  cases hpair
  rw [isMutating_firstOf, hselection, hreads]

theorem CalculatedPipeline.resolve_reads (p : CalculatedPipeline) (hbase : Base.Reads p.base) :
    Resolver.Reads p.resolve := by
  intro i fresh r hw
  refine Session.ofPlan_reads (fun context t hplan => ?_) _ hw
  obtain ⟨base, hb, hpair⟩ := Except.map_eq_ok.mp hplan
  cases hpair
  rw [isMutating_firstOf, hbase i fresh base hb]

end GraphGateway
