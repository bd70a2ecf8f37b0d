import GraphGateway.Proofs.Evaluation.Compose

/-!
# Tests in succession

Steps that test the value of a property. A run of such steps leaves the values
that pass all of them, so that their order does not matter, whatever they follow.
-/

namespace GraphGateway

def Step.isTest : Step → Bool
  | .has .. => true
  | _ => false

/-- Whether a value passes a step, if that is a test. -/
def Graph.passes (g : Graph) : Step → Value → Bool
  | .has key p, v => g.has key p v
  | _, _ => true

theorem Eval.ext {α : Type} {e other : Eval α} (h : ∀ s, e.runOn s = other.runOn s) : e = other :=
  funext h

namespace Step

variable {steps : List Step}

theorem tests_perm {others : List Step} (h : ∀ step ∈ steps, step.isTest = true)
    (hperm : steps.Perm others) : ∀ step ∈ others, step.isTest = true :=
  fun step hm => h step (hperm.mem_iff.mpr hm)

theorem standsAlone_of_tests (h : ∀ step ∈ steps, step.isTest = true) :
    standsAlone steps = true := by
  cases steps with
  | nil => rfl
  | cons step rest =>
      have hstep := h step List.mem_cons_self
      cases step <;> first | rfl | cases hstep

theorem anyMutation_of_tests (h : ∀ step ∈ steps, step.isTest = true) :
    anyMutation steps = false := by
  induction steps with
  | nil => rfl
  | cons step rest ih =>
      obtain ⟨hstep, hrest⟩ := List.forall_mem_cons.mp h
      cases step <;> first | exact ih hrest | cases hstep

/-- Tests leave the values that pass all of them. -/
theorem onValues_tests (h : ∀ step ∈ steps, step.isTest = true) (access : Access)
    (input : List Value) (s : Store) :
    (onValues access steps input).Yields s
      (input.filter fun v => steps.all fun step => s.graph.passes step v) := by
  induction steps generalizing input with
  | nil =>
      have hall : (input.filter fun v => [].all fun step => s.graph.passes step v) = input :=
        List.filter_true input
      rw [hall]
      exact Eval.Yields.pure input
  | cons step rest ih =>
      obtain ⟨hstep, hrest⟩ := List.forall_mem_cons.mp h
      cases step with
      | has key p =>
          have hothers := ih hrest (input.filter (s.graph.has key p))
          have hboth : ((input.filter (s.graph.has key p)).filter fun v =>
                rest.all fun step => s.graph.passes step v) =
              input.filter fun v => (has key p :: rest).all fun step => s.graph.passes step v := by
            rw [List.filter_filter]
            refine List.filter_congr fun v _ => ?_
            rw [List.all_cons, Bool.and_comm]
            rfl
          rw [← hboth, ← List.singleton_append, onValues_append (standsAlone_of_tests hrest)]
          exact (has_yields access key p input s).bind hothers
      | _ => cases hstep

theorem onValues_tests_perm {others : List Step} (h : ∀ step ∈ steps, step.isTest = true)
    (hperm : steps.Perm others) (access : Access) (input : List Value) :
    onValues access steps input = onValues access others input := by
  have hothers := tests_perm h hperm
  refine Eval.ext fun s => ?_
  rw [onValues_tests h access input s, onValues_tests hothers access input s]
  have hall : ∀ v, (steps.all fun step => s.graph.passes step v) =
      others.all fun step => s.graph.passes step v := fun v => hperm.all_eq
  simp only [hall]

/-- A test has nothing to work on at the front of a traversal. -/
theorem run_tests_none (h : ∀ step ∈ steps, step.isTest = true) (hne : steps ≠ [])
    (access : Access) :
    Stage.run access false (stages access steps) none = throw (.cannotStart "has") := by
  cases steps with
  | nil => exact (hne rfl).elim
  | cons step rest =>
      obtain ⟨hstep, hrest⟩ := List.forall_mem_cons.mp h
      have hnone : (stages access rest).takeWhile (fun stage => stage.step.isModulator) = [] := by
        have halone : Stage.standsAlone (stages access rest) = true :=
          stages_standsAlone (standsAlone_of_tests hrest)
        simpa using Stage.takeWhile_append halone []
      cases step with
      | has key p =>
          rw [stages, Stage.run_step rfl, hnone]
          rfl
      | _ => cases hstep

end Step

namespace Traversal

variable {steps others : List Step}

/-- The order of tests at the end of a traversal does not matter, wherever the traversal runs. -/
theorem routine_extend_perm (h : ∀ step ∈ steps, step.isTest = true) (hperm : steps.Perm others)
    (access : Access) (t : Traversal) :
    (t.extend steps).routine access = (t.extend others).routine access := by
  have hothers := Step.tests_perm h hperm
  have halone := Step.standsAlone_of_tests h
  have hsecond := Step.standsAlone_of_tests hothers
  have hvalues : Step.onValues access steps = Step.onValues access others :=
    funext fun results => Step.onValues_tests_perm h hperm access results
  funext start
  by_cases hstart : t.steps ≠ [] ∨ start ≠ none
  · rw [routine_extend t halone hstart, routine_extend t hsecond hstart, hvalues]
  · -- then the tests stand at the front, and fail there whichever comes first
    rw [not_or, not_not, not_not] at hstart
    obtain ⟨hbase, rfl⟩ := hstart
    have hsteps : ∀ more, (t.extend more).steps = more := fun more =>
      congrArg (fun base => base ++ more) hbase
    rw [routine_eq, routine_eq, hsteps, hsteps]
    by_cases hne : steps = []
    · have hnil : others = [] := List.perm_nil.mp (hne ▸ hperm).symm
      rw [hne, hnil]
    · have hnil : others ≠ [] := fun hnil => hne (List.perm_nil.mp (hnil ▸ hperm))
      rw [Step.run_tests_none h hne, Step.run_tests_none hothers hnil]

theorem submit_extend_perm (h : ∀ step ∈ steps, step.isTest = true) (hperm : steps.Perm others)
    (t : Traversal) (s : Store) : s.submit (t.extend steps) = s.submit (t.extend others) := by
  have hothers := Step.tests_perm h hperm
  have haccess : Store.accessFor (t.extend steps) = Store.accessFor (t.extend others) := by
    simp only [Store.accessFor, isMutating_extend, Step.anyMutation_of_tests h,
      Step.anyMutation_of_tests hothers]
  unfold Store.submit
  rw [haccess, routine_extend_perm h hperm]
  rfl

end Traversal

end GraphGateway
