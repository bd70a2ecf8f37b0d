import GraphGateway.Dispatch.Provider
import GraphGateway.Proofs.Except
import GraphGateway.Proofs.Evaluation.Reachable

/-!
# Reading without write access

Which traversals may write is read off their steps before anything runs. What is
classified as reading does the same under either access: it leaves the store as
it is and is never refused write access. Both facts go through every position in
which a step runs a child traversal.
-/

namespace GraphGateway

/-! ## The refusal of write access -/

namespace EvaluationError

/-- No other cause has the wording of the refusal of write access. -/
theorem message_eq_readOnly {err : EvaluationError}
    (h : err.message = readOnly.message) : err = readOnly := by
  have hfirst : err.message.toList.head? = some 'm' := by
    rw [h]
    decide +kernel
  have hbracket : '(' ∉ err.message.toList := by
    rw [h]
    decide +kernel
  clear h
  unfold message at hfirst hbracket
  cases err with
  | readOnly => rfl
  | anonymous | severalShapes | noEndpoint => exact absurd hfirst (by decide +kernel)
  -- wordings that begin with a name show it as a call
  | notAnElement step found => simp at hbracket
  | nothingToModulate modulator => simp at hbracket
  | cannotModulate modulator step => simp at hbracket
  | _ => simp at hfirst

end EvaluationError

namespace Eval

variable {α β : Type}

/-- Whatever the store, it stays as it is, and the outcome is no refusal of write access. -/
def ReadsOnly (e : Eval α) : Prop :=
  ∀ s, (e.runOn s).2 = s ∧ (e.runOn s).1 ≠ .error .readOnly

namespace ReadsOnly

theorem pure (a : α) : ReadsOnly (pure a : Eval α) := by
  intro s
  exact ⟨rfl, fun h => by cases h⟩

theorem throw {err : EvaluationError} (h : err ≠ .readOnly) : ReadsOnly (throw err : Eval α) := by
  intro s
  exact ⟨rfl, fun heq => h (Except.error.inj heq)⟩

theorem bind {e : Eval α} {f : α → Eval β} (he : ReadsOnly e) (hf : ∀ a, ReadsOnly (f a)) :
    ReadsOnly (e >>= f) := by
  intro s
  obtain ⟨hsame, hne⟩ := he s
  rw [runOn_bind]
  cases h : runOn e s with
  | mk outcome next =>
      rw [h] at hsame hne
      cases hsame
      cases outcome with
      | ok a => exact hf a next
      | error err => exact ⟨rfl, fun heq => hne (congrArg Except.error (Except.error.inj heq))⟩

theorem look {read : Graph → Except EvaluationError α} (h : ∀ g, read g ≠ .error .readOnly) :
    ReadsOnly (look read) := by
  intro s
  rw [runOn_look]
  exact ⟨rfl, h s.graph⟩

end ReadsOnly

end Eval

/-! ## Reading the graph -/

namespace Graph

variable (g : Graph)

theorem vertexAt_ne_readOnly (slot : Nat) : g.vertexAt slot ≠ .error .readOnly := by
  unfold vertexAt
  split
  · simp
  · simp

theorem edgeAt_ne_readOnly (slot : Nat) : g.edgeAt slot ≠ .error .readOnly := by
  unfold edgeAt
  split
  · simp
  · refine Except.bind_ne_error (g.vertexAt_ne_readOnly _) fun source => ?_
    exact Except.bind_ne_error (g.vertexAt_ne_readOnly _) fun target => by simp

theorem selectVertices_ne_readOnly (ids : List Value) :
    g.selectVertices ids ≠ .error .readOnly :=
  Except.mapM_ne_error (fun slot => Except.map_ne_error (g.vertexAt_ne_readOnly slot)) _

theorem selectEdges_ne_readOnly (ids : List Value) : g.selectEdges ids ≠ .error .readOnly :=
  Except.mapM_ne_error (fun slot => Except.map_ne_error (g.edgeAt_ne_readOnly slot)) _

theorem element_ne_readOnly (step : String) (v : Value) : g.element step v ≠ .error .readOnly := by
  unfold element
  split
  · simp
  · simp

theorem valueMap_ne_readOnly (tokens : Bool) (keys : List String) (v : Value) :
    g.valueMap tokens keys v ≠ .error .readOnly :=
  Except.bind_ne_error (g.element_ne_readOnly _ v) fun e => by simp

theorem walkStart_ne_readOnly (v : Value) : g.walkStart v ≠ .error .readOnly := by
  unfold walkStart
  split
  · simp
  · simp

theorem neighbours_ne_readOnly (side : Side) (labels : List String) (v : Value) :
    g.neighbours side labels v ≠ .error .readOnly := by
  refine Except.bind_ne_error (g.walkStart_ne_readOnly v) fun start => ?_
  cases start with
  | none => simp
  | some slot =>
      exact Except.mapM_ne_error (fun p => Except.map_ne_error (g.vertexAt_ne_readOnly _)) _

theorem incidentEdges_ne_readOnly (side : Side) (labels : List String) (v : Value) :
    g.incidentEdges side labels v ≠ .error .readOnly := by
  refine Except.bind_ne_error (g.walkStart_ne_readOnly v) fun start => ?_
  cases start with
  | none => simp
  | some slot =>
      exact Except.mapM_ne_error (fun p => Except.map_ne_error (g.edgeAt_ne_readOnly _)) _

theorem hop_ne_readOnly (direction : Direction) (labels : List String) (v : Value) :
    g.hop direction labels v ≠ .error .readOnly := by
  cases direction with
  | along side => exact g.neighbours_ne_readOnly side labels v
  | both =>
      refine Except.bind_ne_error (g.neighbours_ne_readOnly .outgoing labels v) fun out => ?_
      exact Except.bind_ne_error (g.neighbours_ne_readOnly .incoming labels v) fun into => by simp

theorem endpoint_ne_readOnly (side : Side) (v : Value) : g.endpoint side v ≠ .error .readOnly := by
  unfold endpoint
  split
  · split
    · simp
    · exact Except.map_ne_error (g.vertexAt_ne_readOnly _)
  · simp

end Graph

theorem Reading.ne_readOnly {α : Type} {read : Graph → Except EvaluationError α} (h : Reading read)
    (g : Graph) : read g ≠ .error .readOnly := by
  induction h with
  | selectVertices ids => exact g.selectVertices_ne_readOnly ids
  | selectEdges ids => exact g.selectEdges_ne_readOnly ids
  | hasLabel labels input => simp
  | has key p input => simp
  | hop direction labels v => exact g.hop_ne_readOnly direction labels v
  | incidentEdges side labels v => exact g.incidentEdges_ne_readOnly side labels v
  | endpoint side v => exact g.endpoint_ne_readOnly side v
  | valueMap tokens keys v => exact g.valueMap_ne_readOnly tokens keys v
  | element step v => exact g.element_ne_readOnly step v
  | map f _ ih => exact Except.map_ne_error ih

/-! ## Steps -/

/-- Without writing there is nothing but reading. -/
theorem Eval.ReadsOnly.logic : Logic .read False Eval.ReadsOnly where
  pure := .pure
  throw := fun _ hne => .throw hne
  bind := .bind
  look := fun hread => .look hread.ne_readOnly
  change := False.elim
  addVertex := False.elim
  drawEdge := False.elim

namespace Stage

/-- A step that may not write does the same under either access. -/
theorem apply_access {stage : Stage} (hstep : stage.step.isMutation = false)
    (modulators : List Stage) : stage.apply .read modulators = stage.apply .write modulators := by
  obtain ⟨step, child⟩ := stage
  funext start
  cases step <;> cases start <;> first | rfl | cases hstep

theorem run_access {stages : List Stage} (h : ∀ stage ∈ stages, stage.step.isMutation = false)
    (taken : Bool) : run .read taken stages = run .write taken stages := by
  induction stages generalizing taken with
  | nil => rfl
  | cons stage rest ih =>
      have hrest := ih fun m hm => h m (List.mem_cons_of_mem stage hm)
      funext start
      cases hs : stage.step.isModulator with
      | true => rw [run_modulator hs, run_modulator hs, hrest]
      | false =>
          rw [run_step hs, run_step hs, hrest, apply_access (h stage List.mem_cons_self)]

end Stage

/-! ## Traversals -/

/-- A traversal that is classified as reading only reads. -/
theorem Traversal.routine_readsOnly (t : Traversal) (h : t.isMutating = false) :
    (t.routine .read).Obeys Eval.ReadsOnly :=
  Eval.ReadsOnly.logic.routine t (by simp [h])

mutual

theorem Step.childRoutine_access (step : Step) (h : step.isMutation = false) :
    step.childRoutine .read = step.childRoutine .write := by
  cases step with
  | suchThat condition => exact Traversal.routine_access condition h
  | modulator role child => exact Traversal.routine_access child h
  | _ => rfl

theorem Step.stages_access (steps : List Step) (h : Step.anyMutation steps = false) :
    Step.stages .read steps = Step.stages .write steps := by
  cases steps with
  | nil => rfl
  | cons step rest =>
      rw [Step.anyMutation, Bool.or_eq_false_iff] at h
      rw [Step.stages, Step.stages, Step.childRoutine_access step h.1, Step.stages_access rest h.2]

/-- A traversal that is classified as reading does the same with write access. -/
theorem Traversal.routine_access (t : Traversal) (h : t.isMutating = false) :
    t.routine .read = t.routine .write := by
  cases t with
  | mk anonymous steps =>
      have hreads := Eval.ReadsOnly.logic.stages steps (Bool.eq_false_iff.mp h)
      show Stage.run .read false (Step.stages .read steps) = Stage.run .write false _
      rw [Stage.run_access (fun stage hm => Bool.eq_false_iff.mpr (hreads stage hm).writes),
        Step.stages_access steps h]

end

/-! ## Connections -/

/-- What a traversal does to a store under an access, failures worded as by a connection. -/
def Store.evaluateWith (access : Access) (t : Traversal) (s : Store) : Outcome × Store :=
  let (outcome, next) := Eval.runOn (t.routine access none) s
  (outcome.mapError .ofEvaluation, next)

namespace Provider

theorem evaluate_eq_read {t : Traversal} (hroot : t.isAnonymous = false)
    (hread : t.isMutating = false) (s : Store) :
    evaluate t s = s.evaluateWith .read t := by
  have haccess : Store.accessFor t = .read := by simp [Store.accessFor, hread]
  simp only [evaluate, Store.submit, hroot, haccess]
  rfl

/-- A submitted traversal that is classified as reading writes nothing and is refused nothing. -/
theorem evaluate_reads {t : Traversal} (hroot : t.isAnonymous = false)
    (hread : t.isMutating = false) (s : Store) :
    (evaluate t s).2 = s ∧
      (evaluate t s).1 ≠
        .error (.evaluation "mutation attempted through a read-only evaluation") ∧
      evaluate t s = s.evaluateWith .write t := by
  obtain ⟨hsame, hne⟩ := t.routine_readsOnly hread none s
  rw [evaluate_eq_read hroot hread]
  refine ⟨hsame, ?_, ?_⟩
  · intro h
    cases hrun : ((t.routine .read none).runOn s).1 with
    | ok results =>
        simp only [Store.evaluateWith, hrun] at h
        cases h
    | error err =>
        simp only [Store.evaluateWith, hrun] at h
        have hmessage : err.message = EvaluationError.readOnly.message :=
          GraphError.evaluation.inj (Except.error.inj h)
        rw [EvaluationError.message_eq_readOnly hmessage] at hrun
        exact hne hrun
  · unfold Store.evaluateWith
    rw [t.routine_access hread]

/-- Every user with a follower, and the names of those they follow except `Ann`. -/
def followedNames : Traversal :=
  .root
    [.vertices [], .suchThat (.anonymous [.hop (.along .incoming) ["FOLLOWS"]]),
      .project ["name", "follows"], .modulator .shape (.anonymous [.values ["name"]]),
      .modulator .shape
        (.anonymous
          [.hop (.along .outgoing) ["FOLLOWS"],
            .suchThat (.anonymous [.has (.name "name") (.relation .neq (.string "Ann"))]),
            .values ["name"], .fold])]

theorem evaluate_reads_followedNames :
    followedNames.isAnonymous = false ∧ followedNames.isMutating = false ∧
      (evaluate followedNames Store.follower).2 = Store.follower ∧
      evaluate followedNames Store.follower =
        Store.follower.evaluateWith .write followedNames := by
  have h := evaluate_reads (t := followedNames) rfl rfl Store.follower
  exact ⟨rfl, rfl, h.1, h.2.2⟩

end Provider

end GraphGateway
