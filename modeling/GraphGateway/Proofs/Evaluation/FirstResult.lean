import GraphGateway.Dispatch.Provider
import GraphGateway.Resolver.Pipeline
import GraphGateway.Proofs.Except
import GraphGateway.Proofs.Evaluation.Reachable

/-!
# First results

A limit at the end of a traversal shortens the list of its results and does nothing
else: the steps before it run to their end, with all that they write and all the
identifiers they draw, and fail as they would without it. So the first result of a
traversal is the head of all of them.
-/

namespace GraphGateway

namespace Eval

/-- A last step that computes its result from what came before changes only the result. -/
theorem runOn_map {α β : Type} (e : Eval α) (f : α → β) (s : Store) :
    runOn (e >>= fun a => pure (f a)) s = ((e.runOn s).1.map f, (e.runOn s).2) := by
  rw [runOn_bind]
  cases h : e.runOn s with
  | mk outcome next => cases outcome <;> rfl

end Eval

namespace Store

variable {t : Traversal}

/-- A limit at the end keeps so many results; the traversal runs as before. -/
theorem submit_limit (hne : t.steps ≠ []) (n : Int64) (s : Store) :
    s.submit (t.step (.limit n)) =
      ((s.submit t).1.map (List.take n.toInt.toNat), (s.submit t).2) := by
  cases hroot : t.isAnonymous with
  | true =>
      have hlimited : (t.step (.limit n)).isAnonymous = true := hroot
      simp [submit, hroot, hlimited, Except.map]
  | false =>
      have hlast : Step.onValues (accessFor t) [.limit n] =
          fun results => pure (results.take n.toInt.toNat) := by
        funext results
        exact Step.onValues_singleton rfl results
      have hextend : t.step (.limit n) = t.extend [.limit n] := rfl
      have hsubmit : s.submit t = (t.routine (accessFor t) none).runOn s := by
        simp [submit, hroot]
      rw [hextend, submit_extend hroot hne rfl rfl, hlast, Eval.runOn_map, hsubmit]

/-- An anonymous traversal is refused with a limit at the end as without one. -/
theorem submitFirst_anonymous (h : t.isAnonymous = true) (s : Store) :
    s.submitFirst t = ((s.submit t).1.map List.head?, (s.submit t).2) := by
  have hlimited : (t.step (.limit 1)).isAnonymous = true := h
  simp [submitFirst, submit, h, hlimited, Except.map]

theorem submitFirst_of_steps (hne : t.steps ≠ []) (s : Store) :
    s.submitFirst t = ((s.submit t).1.map List.head?, (s.submit t).2) := by
  have hone : (1 : Int64).toInt.toNat = 1 := rfl
  unfold submitFirst
  rw [submit_limit hne, hone]
  cases (s.submit t).1 with
  | error err => rfl
  | ok results => cases results <;> rfl

/-- Without steps there are no results, but a limit has nothing to start from. -/
theorem submitFirst_empty (s : Store) :
    (s.submit (.root [])).1 = .ok [] ∧
      (s.submitFirst (.root [])).1 = .error (.cannotStart "limit") :=
  ⟨rfl, rfl⟩

/-- Asking for the first result is evaluating the whole traversal and taking the head of its
results: the same failure, and the same store with the same identifiers drawn. The only exception is
the traversal from the graph that has no steps. What pipelines submit for a single record comes to
the same on the provider, as a list of at most one result. -/
theorem submitFirst_is_head (t : Traversal) (s : Store) :
    (s.submitFirst t = ((s.submit t).1.map List.head?, (s.submit t).2) ↔
      t.isAnonymous = true ∨ t.steps ≠ []) ∧
    (t.steps ≠ [] →
      Provider.evaluate (firstOf t) s =
        ((Provider.evaluate t s).1.map (List.take 1), (Provider.evaluate t s).2)) := by
  refine ⟨⟨fun h => ?_, fun h => ?_⟩, fun hne => ?_⟩
  · obtain ⟨anonymous, steps⟩ := t
    cases anonymous with
    | true => exact .inl rfl
    | false =>
        refine .inr fun hnil => ?_
        obtain rfl : steps = [] := hnil
        obtain ⟨hall, hfirst⟩ := submitFirst_empty s
        have houtcome := hfirst.symm.trans (congrArg Prod.fst h)
        rw [show (s.submit (.mk false [])).1 = .ok [] from hall] at houtcome
        cases houtcome
  · rcases h with hanonymous | hne
    · exact submitFirst_anonymous hanonymous s
    · exact submitFirst_of_steps hne s
  · have hevaluate : ∀ other, Provider.evaluate other s =
        ((s.submit other).1.mapError .ofEvaluation, (s.submit other).2) := fun _ => rfl
    have hlimited := submit_limit hne 1 s
    rw [hevaluate, hevaluate, firstOf, hlimited]
    cases (s.submit t).1 <;> rfl

/-- An edge from every vertex to the second user. -/
def likingBob : Traversal :=
  .root
    [.vertices [], .addEdge "LIKES", .modulator .target (.anonymous [.vertices [.string "u2"]])]

/-- Only one of the edges comes out, but both are added. -/
theorem submitFirst_is_head_likingBob :
    likingBob.steps ≠ [] ∧
      (follower.submitFirst likingBob).1 =
        .ok (some (.edge ⟨.text "x", "LIKES", .text "u1", .text "u2"⟩)) ∧
      (Provider.evaluate (firstOf likingBob) follower).2.graph.edgeCount = 3 := by
  have hne : likingBob.steps ≠ [] := by simp [likingBob, Traversal.root, Traversal.steps]
  obtain ⟨hhead, hevaluate⟩ := submitFirst_is_head likingBob follower
  refine ⟨hne, ?_, ?_⟩
  · rw [hhead.mpr (.inr hne)]
    rfl
  · rw [hevaluate hne]
    rfl

end Store

end GraphGateway
