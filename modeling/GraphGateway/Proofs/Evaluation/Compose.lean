import GraphGateway.Proofs.Evaluation.Invariant

/-!
# Composing traversals

Running a list of steps is running its first part and then the rest on what came
out, provided that the rest does not begin with a modulator of the first part.
This is what lets a filter, a selection or a page be understood as a fragment of
its own that is appended to any traversal.
-/

namespace GraphGateway

/-- Whether a list of steps refines nothing that stands before it. -/
def Step.standsAlone (steps : List Step) : Bool :=
  match steps with
  | [] => true
  | step :: _ => !step.isModulator

namespace Stage

def standsAlone (stages : List Stage) : Bool :=
  match stages with
  | [] => true
  | stage :: _ => !stage.step.isModulator

variable {access : Access}

/-- A step that is no modulator takes the modulators after it and goes on with its results. -/
theorem run_step {stage : Stage} (h : stage.step.isModulator = false) (taken : Bool)
    (rest : List Stage) (start : Option (List Value)) :
    run access taken (stage :: rest) start =
      checkModulators stage.step (rest.takeWhile fun s => s.step.isModulator) >>= fun _ =>
        stage.apply access (rest.takeWhile fun s => s.step.isModulator) start >>= fun results =>
          run access true rest (some results) := by
  simp [run, h]

/-- A modulator was handed to the step before it; at the front there is none. -/
theorem run_modulator {stage : Stage} (h : stage.step.isModulator = true) (taken : Bool)
    (rest : List Stage) (start : Option (List Value)) :
    run access taken (stage :: rest) start =
      if taken then run access true rest start
      else throw (.nothingToModulate stage.step.name) := by
  simp [run, h]

theorem run_taken {stages : List Stage} (h : standsAlone stages = true) (taken : Bool)
    (start : Option (List Value)) :
    run access taken stages start = run access false stages start := by
  cases stages with
  | nil => rfl
  | cons stage rest =>
      have hstep : stage.step.isModulator = false := by simpa [standsAlone] using h
      rw [run_step hstep, run_step hstep]

theorem takeWhile_append {rest : List Stage} (h : standsAlone rest = true) (first : List Stage) :
    (first ++ rest).takeWhile (fun s => s.step.isModulator) =
      first.takeWhile fun s => s.step.isModulator := by
  induction first with
  | nil =>
      cases rest with
      | nil => rfl
      | cons stage others =>
          have hstep : stage.step.isModulator = false := by simpa [standsAlone] using h
          simp [hstep]
  | cons stage others ih =>
      cases hs : stage.step.isModulator with
      | true => simp [hs, ih]
      | false => simp [hs]

/-- From values, stages that stand alone work on the results of those before them. -/
theorem run_append_some {rest : List Stage} (h : standsAlone rest = true) (first : List Stage)
    (taken : Bool) (input : List Value) :
    run access taken (first ++ rest) (some input) =
      run access taken first (some input) >>= fun results =>
        run access false rest (some results) := by
  induction first generalizing taken input with
  | nil =>
      rw [List.nil_append, run_taken h]
      exact (pure_bind input fun results => run access false rest (some results)).symm
  | cons stage others ih =>
      rw [List.cons_append]
      cases hs : stage.step.isModulator with
      | true =>
          rw [run_modulator hs, run_modulator hs]
          cases taken with
          | true => exact ih true input
          | false => rfl
      | false =>
          rw [run_step hs, run_step hs, takeWhile_append h]
          simp only [bind_assoc, ih]

/-- From the graph as well, when there is a first stage. -/
theorem run_append_none {rest : List Stage} (h : standsAlone rest = true) {first : List Stage}
    (hne : first ≠ []) :
    run access false (first ++ rest) none =
      run access false first none >>= fun results => run access false rest (some results) := by
  cases first with
  | nil => exact (hne rfl).elim
  | cons stage others =>
      rw [List.cons_append]
      cases hs : stage.step.isModulator with
      | true =>
          rw [run_modulator hs, run_modulator hs]
          rfl
      | false =>
          rw [run_step hs, run_step hs, takeWhile_append h]
          simp only [bind_assoc, run_append_some h]

end Stage

namespace Step

variable {access : Access}

theorem stages_append (first rest : List Step) :
    stages access (first ++ rest) = stages access first ++ stages access rest := by
  induction first with
  | nil => simp [stages]
  | cons step others ih => simp [stages, ih]

theorem stages_standsAlone {steps : List Step} (h : standsAlone steps = true) :
    Stage.standsAlone (stages access steps) = true := by
  cases steps with
  | nil => simp [stages, Stage.standsAlone]
  | cons step rest => simpa [stages, Stage.standsAlone, standsAlone] using h

theorem stages_eq_nil_iff (steps : List Step) : stages access steps = [] ↔ steps = [] := by
  cases steps <;> simp [stages]

theorem anyMutation_append (first rest : List Step) :
    anyMutation (first ++ rest) = (anyMutation first || anyMutation rest) := by
  induction first with
  | nil => simp [anyMutation]
  | cons step others ih => simp [anyMutation, ih, Bool.or_assoc]

def onValues (access : Access) (steps : List Step) (input : List Value) : Eval (List Value) :=
  Stage.run access false (stages access steps) (some input)

theorem onValues_append {rest : List Step} (h : standsAlone rest = true) (first : List Step)
    (input : List Value) :
    onValues access (first ++ rest) input =
      onValues access first input >>= onValues access rest := by
  unfold onValues
  rw [stages_append]
  exact Stage.run_append_some (stages_standsAlone h) _ false input

/-- A single step without modulators. -/
theorem onValues_singleton {step : Step} (h : step.isModulator = false) (input : List Value) :
    onValues access [step] input =
      Stage.applyTo access ⟨step, step.childRoutine access⟩ [] input := by
  have hcheck : Stage.checkModulators step [] = pure () := rfl
  simp [onValues, stages, Stage.run, h, hcheck, Stage.apply]

theorem onValues_cons {step : Step} (hstep : step.isModulator = false) {rest : List Step}
    (hrest : standsAlone rest = true) (input : List Value) :
    onValues access (step :: rest) input =
      Stage.applyTo access ⟨step, step.childRoutine access⟩ [] input >>= onValues access rest := by
  rw [← onValues_singleton hstep, ← onValues_append hrest, List.singleton_append]

/-- A step takes every modulator that follows it. -/
theorem onValues_modulated {step : Step} (hstep : step.isModulator = false) {modulators : List Step}
    (hm : ∀ m ∈ modulators, m.isModulator = true) (input : List Value) :
    onValues access (step :: modulators) input =
      Stage.checkModulators step (stages access modulators) >>= fun _ =>
        Stage.applyTo access ⟨step, step.childRoutine access⟩ (stages access modulators) input := by
  have htaken : (stages access modulators).takeWhile (fun s => s.step.isModulator) =
      stages access modulators := by
    induction modulators with
    | nil => simp [stages]
    | cons m rest ih =>
        have hrest := ih fun n hn => hm n (List.mem_cons_of_mem m hn)
        simp [stages, hm m List.mem_cons_self, hrest]
  have hdone : ∀ results, Stage.run access true (stages access modulators) (some results) =
      pure results := by
    intro results
    clear htaken
    induction modulators with
    | nil => simp [stages, Stage.run]
    | cons m rest ih =>
        have hrest := ih fun n hn => hm n (List.mem_cons_of_mem m hn)
        rw [stages, Stage.run_modulator (hm m List.mem_cons_self), if_pos rfl]
        exact hrest
  unfold onValues
  rw [stages, Stage.run_step hstep, htaken]
  simp only [hdone, bind_pure, Stage.apply]

/-! ## Steps without effects -/

theorem hasLabel_yields (access : Access) (labels : List String) (input : List Value) (s : Store) :
    (onValues access [.hasLabel labels] input).Yields s
      (input.filter (s.graph.hasLabel labels)) := by
  rw [onValues_singleton rfl]
  show (Eval.look fun g => .ok (input.filter (g.hasLabel labels))).Yields s _
  exact Eval.Yields.look rfl

theorem has_yields (access : Access) (key : Key) (p : Predicate) (input : List Value)
    (s : Store) :
    (onValues access [.has key p] input).Yields s (input.filter (s.graph.has key p)) := by
  rw [onValues_singleton rfl]
  show (Eval.look fun g => .ok (input.filter (g.has key p))).Yields s _
  exact Eval.Yields.look rfl

theorem unfold_yields (access : Access) (input : List Value) (s : Store) :
    (onValues access [.unfold] input).Yields s (input.flatMap Stage.unfolded) := by
  rw [onValues_singleton rfl]
  exact Eval.Yields.pure _

theorem count_yields (access : Access) (input : List Value) (s : Store) :
    (onValues access [.count] input).Yields s [.int (Int64.ofNat input.length)] := by
  rw [onValues_singleton rfl]
  exact Eval.Yields.pure _

theorem limit_one_yields (access : Access) (input : List Value) (s : Store) :
    (onValues access [.limit 1] input).Yields s (input.take 1) := by
  rw [onValues_singleton rfl]
  exact Eval.Yields.pure _

end Step

namespace Traversal

theorem routine_eq (access : Access) (t : Traversal) :
    t.routine access = Stage.run access false (Step.stages access t.steps) := by
  cases t
  rfl

/-- Appended steps go on with the results, unless there is nothing to go on from. -/
theorem routine_extend (t : Traversal) {access : Access} {more : List Step}
    (halone : Step.standsAlone more = true) {start : Option (List Value)}
    (hstart : t.steps ≠ [] ∨ start ≠ none) :
    (t.extend more).routine access start =
      t.routine access start >>= Step.onValues access more := by
  have hmore : Stage.standsAlone (Step.stages access more) = true := Step.stages_standsAlone halone
  have hsteps : (t.extend more).steps = t.steps ++ more := rfl
  rw [routine_eq, routine_eq, hsteps, Step.stages_append]
  cases start with
  | some input => exact Stage.run_append_some hmore _ false input
  | none =>
      have hfirst : t.steps ≠ [] := hstart.resolve_right fun h => h rfl
      exact Stage.run_append_none hmore fun h => hfirst ((Step.stages_eq_nil_iff t.steps).mp h)

/-- Running a list of steps is running its first part and then, if that succeeds, the rest on its
results: the outcome is the same, whether it is a result or an error, and so is the store. -/
theorem run_composes {access : Access} {anonymous : Bool} {first rest : List Step}
    (halone : Step.standsAlone rest = true) {start : Option (List Value)}
    (hstart : first ≠ [] ∨ start ≠ none) (s : Store) :
    Eval.runOn ((mk anonymous (first ++ rest)).routine access start) s =
      match Eval.runOn ((mk anonymous first).routine access start) s with
      | (.ok results, next) => Eval.runOn ((mk anonymous rest).routine access (some results)) next
      | (.error err, next) => (.error err, next) := by
  have hextend : mk anonymous (first ++ rest) = (mk anonymous first).extend rest := rfl
  rw [hextend, routine_extend (mk anonymous first) halone hstart, Eval.runOn_bind]
  cases Eval.runOn ((mk anonymous first).routine access start) s with
  | mk outcome next => cases outcome <;> rfl

/-- A vertex is added, and what follows gives it a name and reads it again. -/
theorem run_composes_named :
    Step.standsAlone [.property (.name "name") (.string "Ann"), .project ["who"],
        .modulator .shape (anonymous [.values ["name"]])] = true ∧
      (Eval.runOn ((root ([.addVertex "User"] ++
          [.property (.name "name") (.string "Ann"), .project ["who"],
            .modulator .shape (anonymous [.values ["name"]])])).routine .write none)
        ⟨.empty, ⟨fun _ => "u1", 0⟩⟩).1 = .ok [.map ⟨[(.name "who", .string "Ann")]⟩] := by
  refine ⟨rfl, ?_⟩
  unfold root
  rw [run_composes rfl (.inl (List.cons_ne_nil _ _))]
  rfl

-- Without a first step, the graph is not the same start as the values that it does not yield.
example (s : Store) :
    (Eval.runOn ((root [.count]).routine .read none) s).1 = .error (.cannotStart "count") ∧
      (Eval.runOn ((root [.count]).routine .read (some [])) s).1 = .ok [.int 0] :=
  ⟨rfl, rfl⟩

theorem isMutating_eq (t : Traversal) : t.isMutating = Step.anyMutation t.steps := by
  cases t
  rfl

theorem isMutating_extend (t : Traversal) (more : List Step) :
    (t.extend more).isMutating = (t.isMutating || Step.anyMutation more) := by
  rw [isMutating_eq, isMutating_eq]
  exact Step.anyMutation_append t.steps more

end Traversal

namespace Store

variable {s : Store}

/-! ## Submitting -/

/-- Appending steps that stand alone and write nothing: evaluate, then go on with the results. -/
theorem submit_extend {t : Traversal} (hroot : t.isAnonymous = false) (hne : t.steps ≠ [])
    {more : List Step} (halone : Step.standsAlone more = true)
    (hread : Step.anyMutation more = false) (s : Store) :
    s.submit (t.extend more) =
      Eval.runOn (t.routine (accessFor t) none >>= Step.onValues (accessFor t) more) s := by
  have haccess : accessFor (t.extend more) = accessFor t := by
    simp [accessFor, Traversal.isMutating_extend, hread]
  have hextended : (t.extend more).isAnonymous = false := hroot
  unfold submit
  rw [hextended, haccess, Traversal.routine_extend t halone (.inl hne)]
  rfl

/-- A traversal from the graph: its first step, and the others on what that finds. -/
theorem submit_root (access : Access) {step : Step} {rest : List Step}
    (haccess : accessFor (.root (step :: rest)) = access) (hstep : step.isModulator = false)
    (hrest : Step.standsAlone rest = true) (s : Store) :
    s.submit (.root (step :: rest)) =
      Eval.runOn (Stage.applyToGraph access ⟨step, step.childRoutine access⟩ [] >>=
        Step.onValues access rest) s := by
  have hroutine : (Traversal.root (step :: rest)).routine access none =
      Stage.applyToGraph access ⟨step, step.childRoutine access⟩ [] >>=
        Step.onValues access rest := by
    have halone : Stage.standsAlone (Step.stages access rest) = true :=
      Step.stages_standsAlone hrest
    have hnone :
        (Step.stages access rest).takeWhile (fun stage => stage.step.isModulator) = [] := by
      simpa using Stage.takeWhile_append halone []
    have hcheck : Stage.checkModulators step [] = pure () := rfl
    have htaken : ∀ results, Stage.run access true (Step.stages access rest) (some results) =
        Step.onValues access rest results :=
      fun results => Stage.run_taken halone true (some results)
    simp [Traversal.routine_eq, Traversal.root, Traversal.steps, Step.stages, Stage.run, hstep,
      hnone, hcheck, htaken, Stage.apply]
  rw [← hroutine, ← haccess]
  rfl

/-! ## Reading leaves the store as it is -/

theorem Unchanged.invariant (hw : s.graph.WellFormed) : Invariant .read fun next => next = s where
  wellFormed := fun _ h => h ▸ hw
  draw := fun h => by cases h
  insertVertex := fun h => by cases h
  insertEdge := fun h => by cases h
  setVertexProperty := fun h => by cases h
  setEdgeProperty := fun h => by cases h
  renameVertex := fun h => by cases h
  removeVertex := fun h => by cases h
  removeEdge := fun h => by cases h

theorem submit_unchanged (hw : s.graph.WellFormed) {t : Traversal} (h : t.isMutating = false) :
    (s.submit t).2 = s := by
  have haccess : accessFor t = .read := by simp [accessFor, h]
  unfold submit
  split
  · rfl
  · rw [haccess]
    exact (((Unchanged.invariant hw).routine t) none s rfl).1

/-- What appended steps make of the results of a traversal. -/
theorem submit_extend_leads {t : Traversal} (hne : t.steps ≠ []) {results : List Value}
    {middle : Store} (hrun : s.submit t = (.ok results, middle)) {more : List Step}
    (halone : Step.standsAlone more = true) (hmore : Step.anyMutation more = false)
    {out : List Value} {last : Store}
    (h : (Step.onValues (accessFor t) more results).Leads middle out last) :
    s.submit (t.extend more) = (.ok out, last) := by
  have hroot : t.isAnonymous = false := by
    cases hanonymous : t.isAnonymous with
    | false => rfl
    | true =>
        rw [submit, if_pos hanonymous] at hrun
        cases hrun
  have hfirst : (t.routine (accessFor t) none).Leads s results middle := by
    simpa [submit, hroot, Eval.Leads] using hrun
  rw [submit_extend hroot hne halone hmore]
  exact hfirst.bind h

/-- The same of a traversal that writes nothing. -/
theorem submit_extend_yields (hw : s.graph.WellFormed) {t : Traversal} (hne : t.steps ≠ [])
    (hread : t.isMutating = false) {results : List Value} (hrun : (s.submit t).1 = .ok results)
    {more : List Step} (halone : Step.standsAlone more = true)
    (hmore : Step.anyMutation more = false) {narrowed : List Value}
    (h : (Step.onValues .read more results).Yields s narrowed) :
    s.submit (t.extend more) = (.ok narrowed, s) := by
  have haccess : accessFor t = .read := by simp [accessFor, hread]
  have hsubmit : s.submit t = (.ok results, s) := Prod.ext hrun (submit_unchanged hw hread)
  refine submit_extend_leads hne hsubmit halone hmore ?_
  rw [haccess]
  exact h.leads

end Store

end GraphGateway
