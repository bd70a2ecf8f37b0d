import GraphGateway.Proofs.Dispatch.Runs
import GraphGateway.Proofs.Evaluation.Emission
import GraphGateway.Proofs.Evaluation.Selection
import GraphGateway.Social.Schema

/-!
# Writes that find nothing

A write is answered with `NotFound` when its traversal lets nothing out. That
nothing was written follows for traversals that account for their writes, as both
writes of the social graph do. It does not follow for others: a removal lets
nothing out precisely when it is done.
-/

namespace GraphGateway

namespace Social

variable {i : Invocation} {fresh : ElementId} {t : Traversal}

/-! ## The writes of the social graph -/

/-- A new user is let out whatever is written to it. -/
theorem newUser_accounts (h : newUser i fresh = .ok t) :
    Step.accountsForWrites (firstOf (recordSelection t)).steps = true := by
  obtain ⟨name, -, h⟩ := Except.bind_eq_ok.mp h
  obtain ⟨age, -, h⟩ := Except.bind_eq_ok.mp h
  cases h
  cases age with
  | none => rfl
  | some n => rfl

/-- From a new edge the one who is followed is let out. -/
theorem newFollow_accounts (h : newFollow i fresh = .ok t) :
    Step.accountsForWrites (firstOf (recordSelection t)).steps = true := by
  obtain ⟨follower, -, h⟩ := Except.bind_eq_ok.mp h
  obtain ⟨followee, -, h⟩ := Except.bind_eq_ok.mp h
  cases h
  rfl

end Social

namespace MutationPipeline

/-! ## Answers -/

variable {p : MutationPipeline} {i : Invocation} {fresh : ElementId} {r : Run Store}
  {key : ResolverKey}

/-- Nothing is found if the base says so, or if the traversal lets nothing out. -/
theorem resolve_notFound_iff :
    ((p.resolve i fresh).carryOut Provider.evaluate r).1 = .error (.notFound key) ↔
      p.base i fresh = .error (.notFound key) ∨
        key = i.key ∧ ∃ t, p.base i fresh = .ok t ∧
          (r.world.submit (firstOf (p.selection t))).1 = .ok [] := by
  unfold resolve
  cases hbase : p.base i fresh with
  | error e => simp [Except.map, Session.ofPlan, Session.carryOut]
  | ok t =>
      rw [Except.map, Session.carryOut_plan]
      cases hrun : (r.world.submit (firstOf (p.selection t))).1 with
      | error err => simp [hrun]
      | ok results => cases results <;> simp [hrun, eq_comm]

/-- A write whose traversal accounts for what it writes, and that answers that nothing was found,
leaves the store as it is. -/
theorem notFound_unwritten (hr : r.world.Reachable)
    (haccounts : ∀ t, p.base i fresh = .ok t →
      Step.accountsForWrites (firstOf (p.selection t)).steps = true)
    (h : ((p.resolve i fresh).carryOut Provider.evaluate r).1 = .error (.notFound key)) :
    ((p.resolve i fresh).carryOut Provider.evaluate r).2.world = r.world := by
  rcases resolve_notFound_iff.mp h with hbase | ⟨-, t, hbase, hempty⟩
  · unfold resolve
    rw [hbase]
    rfl
  · unfold resolve
    rw [hbase, Except.map, Session.carryOut_plan]
    exact Store.submit_unwritten hr.sound (haccounts t hbase) (Prod.ext hempty rfl)

/-- The write that lets a user follow another one. -/
def follow : MutationPipeline where
  base := Social.newFollow

/-- An invocation that lets an unknown user follow the second one. -/
def strangerFollows : Invocation :=
  ⟨"Mutation", "follow",
    .ofList [("follower_id", .string "nobody"), ("followee_id", .string "u2")], none, none⟩

theorem notFound_unwritten_follow :
    ((follow.resolve strangerFollows (.text "f")).carryOut Provider.evaluate
        ⟨Store.follower, []⟩).1 = .error (.notFound ⟨"Mutation", "follow"⟩) ∧
      ((follow.resolve strangerFollows (.text "f")).carryOut Provider.evaluate
        ⟨Store.follower, []⟩).2.world = Store.follower := by
  have hnone : ((follow.resolve strangerFollows (.text "f")).carryOut Provider.evaluate
      ⟨Store.follower, []⟩).1 = .error (.notFound ⟨"Mutation", "follow"⟩) := rfl
  refine ⟨hnone, notFound_unwritten Store.follower_reachable (fun t ht => ?_) hnone⟩
  have hbase : Social.newFollow strangerFollows (.text "f") = .ok t := ht
  exact Social.newFollow_accounts hbase

/-! ## Removals -/

/-- After a removal no record is read. -/
theorem submit_removal (s : Store) (steps : List Step) {out : List Value}
    (h : (s.submit (firstOf (recordSelection (.root (steps ++ [.drop]))))).1 = .ok out) :
    out = [] := by
  have hsteps : Step.anyMutation (Step.selection ++ [.limit 1]) = false := rfl
  have hextended : firstOf (recordSelection (.root (steps ++ [.drop]))) =
      (Traversal.root (steps ++ [.drop])).extend (Step.selection ++ [.limit 1]) :=
    firstOf_recordSelection _
  rw [hextended, Store.submit_extend rfl (by simp [Traversal.root, Traversal.steps]) rfl hsteps,
    Traversal.routine_eq] at h
  obtain ⟨removed, middle, hremoved, hread⟩ := Eval.leads_bind_iff.mp (Prod.ext h rfl)
  obtain rfl := Step.run_drop_leads steps hremoved
  have hnone := Step.selection_first_yields (s := middle)
    (Store.accessFor (.root (steps ++ [.drop]))) [] (by simp)
  exact Except.ok.inj (congrArg Prod.fst (hread.symm.trans hnone))

/-- A removal that goes on to read records is never answered with one. -/
theorem removal_unanswered {steps : List Step}
    (hbase : p.base i fresh = .ok (.root (steps ++ [.drop])))
    (hselection : p.selection = recordSelection) (answer : Json) :
    ((p.resolve i fresh).carryOut Provider.evaluate r).1 ≠ .ok answer := by
  have hempty : ∀ results, (r.world.submit (firstOf (p.selection (.root (steps ++ [.drop]))))).1 =
      .ok results → results = [] := by
    intro results hrun
    rw [hselection] at hrun
    exact submit_removal r.world steps hrun
  unfold resolve
  rw [hbase, Except.map, Session.carryOut_plan]
  intro h
  cases hrun : (r.world.submit (firstOf (p.selection (.root (steps ++ [.drop]))))).1 with
  | error err => simp [hrun] at h
  | ok results =>
      rw [hempty results hrun] at hrun
      simp [hrun] at h

def removeUser : MutationPipeline where
  base := fun _ _ => .ok (.root [.vertices [.string "u1"], .drop])

/-- The user is gone, with the only edge, and nothing is said to be found. -/
theorem removal_notFound :
    Store.follower.Reachable ∧
      ((removeUser.resolve ⟨"Mutation", "removeUser", .empty, none, none⟩ (.text "f")).carryOut
        Provider.evaluate ⟨Store.follower, []⟩).1 =
          .error (.notFound ⟨"Mutation", "removeUser"⟩) ∧
      Store.follower.graph.vertexCount = 2 ∧ Store.follower.graph.edgeCount = 1 ∧
      ((removeUser.resolve ⟨"Mutation", "removeUser", .empty, none, none⟩ (.text "f")).carryOut
        Provider.evaluate ⟨Store.follower, []⟩).2.world.graph.vertexCount = 1 ∧
      ((removeUser.resolve ⟨"Mutation", "removeUser", .empty, none, none⟩ (.text "f")).carryOut
        Provider.evaluate ⟨Store.follower, []⟩).2.world.graph.edgeCount = 0 := by
  exact ⟨Store.follower_reachable, rfl, rfl, rfl, rfl, rfl⟩

end MutationPipeline

end GraphGateway
