import GraphGateway.Evaluation.Run
import GraphGateway.Proofs.Graph.Walk

/-!
# Properties of whole evaluations

A traversal is put together from a handful of computations: it reads the graph in
certain ways, writes to it in certain ways, fails, and does one thing after
another. What holds of these and survives sequencing holds of every routine,
however deeply its child traversals are nested. The induction over steps and
children is done here once; a property that only traversals without write access
have leaves the writing out.
-/

namespace GraphGateway

/-- What a step asks of the graph. -/
inductive Reading : {α : Type} → (Graph → Except EvaluationError α) → Prop
  | selectVertices (ids : List Value) : Reading fun g => g.selectVertices ids
  | selectEdges (ids : List Value) : Reading fun g => g.selectEdges ids
  | hasLabel (labels : List String) (input : List Value) :
      Reading fun g => .ok (input.filter (g.hasLabel labels))
  | has (key : Key) (p : Predicate) (input : List Value) :
      Reading fun g => .ok (input.filter (g.has key p))
  | hop (direction : Direction) (labels : List String) (v : Value) :
      Reading fun g => g.hop direction labels v
  | incidentEdges (side : Side) (labels : List String) (v : Value) :
      Reading fun g => g.incidentEdges side labels v
  | endpoint (side : Side) (v : Value) : Reading fun g => g.endpoint side v
  | valueMap (tokens : Bool) (keys : List String) (v : Value) :
      Reading fun g => g.valueMap tokens keys v
  | element (step : String) (v : Value) : Reading fun g => g.element step v
  | map {α β : Type} {read : Graph → Except EvaluationError α} (f : α → β) :
      Reading read → Reading fun g => (read g).map f

/-- How a step changes the graph without adding to it. -/
inductive Writing : {α : Type} → (Graph → Except EvaluationError (α × Graph)) → Prop
  | setVertexProperty (id : ElementId) (key : String) (value : Value) :
      Writing fun g => (g.setVertexProperty id key value).map ((), ·)
  | setEdgeProperty (id : ElementId) (key : String) (value : Value) :
      Writing fun g => (g.setEdgeProperty id key value).map ((), ·)
  | renameVertex (old new : ElementId) : Writing fun g => g.renameVertex old new
  | removeVertex (id : ElementId) : Writing fun g => .ok ((), g.removeVertex id)
  | removeEdge (id : ElementId) : Writing fun g => .ok ((), g.removeEdge id)

/-- Rules for a property of computations under an access; those for writing hold where it is
allowed. -/
structure Logic (access : Access) (writing : Prop) (P : {α : Type} → Eval α → Prop) : Prop where
  pure : ∀ {α : Type} (a : α), P (pure a : Eval α)
  throw : ∀ {α : Type} {err : EvaluationError}, err.isOrdinary = true → err ≠ .readOnly →
    P (throw err : Eval α)
  bind : ∀ {α β : Type} {e : Eval α} {f : α → Eval β}, P e → (∀ a, P (f a)) → P (e >>= f)
  look : ∀ {α : Type} {read : Graph → Except EvaluationError α}, Reading read → P (Eval.look read)
  change : writing → ∀ {α : Type} {write : Graph → Except EvaluationError (α × Graph)},
    Writing write → P (Eval.change access write)
  addVertex : writing → ∀ label, P (Stage.addVertex access label)
  /-- An identifier is drawn and an edge added under it. -/
  drawEdge : writing → ∀ label source target,
    P (do
      let id ← Eval.fresh access
      let edge ← Eval.change access fun g => g.insertEdge id label source target
      return [Value.edge edge])

/-- Whatever a routine starts from, what it does has the property. -/
def Routine.Obeys (P : {α : Type} → Eval α → Prop) (r : Routine) : Prop :=
  ∀ start, P (r start)

/-- A stage whose child has the property, and whose step writes only where that is allowed. -/
structure Stage.Obeys (writing : Prop) (P : {α : Type} → Eval α → Prop) (stage : Stage) : Prop where
  writes : stage.step.isMutation = true → writing
  child : stage.child.Obeys P

namespace Logic

variable {access : Access} {writing : Prop} {P : {α : Type} → Eval α → Prop}

section Rules

variable {α β : Type}

theorem collect (h : Logic access writing P) {f : α → Eval (List β)} (hf : ∀ a, P (f a))
    (items : List α) : P (Eval.collect f items) := by
  induction items with
  | nil => exact h.pure []
  | cons a rest ih => exact h.bind (hf a) fun first => h.bind ih fun others => h.pure _

theorem each (h : Logic access writing P) {f : α → Eval β} (hf : ∀ a, P (f a)) (items : List α) :
    P (Eval.each f items) :=
  h.collect (fun a => h.bind (hf a) fun b => h.pure [b]) items

end Rules

/-! ## Child routines -/

theorem first (h : Logic access writing P) {child : Routine} (hc : child.Obeys P) (v : Value) :
    P (Stage.first child v) :=
  h.bind (hc (some [v])) fun _ => h.pure _

theorem edgeEnd (h : Logic access writing P) {modulator : Option Stage}
    (hm : ∀ m ∈ modulator, m.child.Obeys P) (start : Option (List Value)) :
    P (Stage.edgeEnd modulator start) := by
  unfold Stage.edgeEnd
  rcases modulator with _ | m
  case' none => refine h.bind (h.pure _) fun candidate => ?_
  case' some =>
    refine h.bind (hm m rfl start) fun results => h.bind (h.pure _) fun candidate => ?_
  all_goals
    dsimp only
    split
    · exact h.pure _
    · exact h.throw rfl (by simp)
    · exact h.throw rfl (by simp)

theorem addEdge (h : Logic access writing P) (hw : writing) (label : String)
    {modulators : List Stage} (hm : ∀ m ∈ modulators, m.child.Obeys P)
    (start : Option (List Value)) : P (Stage.addEdge access label modulators start) := by
  have hend : ∀ role, P (Stage.edgeEnd (modulators.find? (Stage.hasRole role)) start) := by
    intro role
    exact h.edgeEnd (fun m hfound => hm m (List.mem_of_find?_eq_some hfound)) start
  exact h.bind (hend .source) fun source => h.bind (hend .target) fun target =>
    h.drawEdge hw label source target

theorem shapeEntries (h : Logic access writing P) {child : Routine} (hc : child.Obeys P)
    (record : Record) : P (Stage.shapeEntries child record) := by
  refine h.bind (h.collect ?_ _) fun _ => h.pure _
  intro entry
  obtain ⟨key, v⟩ := entry
  cases key with
  | token t => exact h.pure _
  | name k => exact h.bind (h.first hc v) fun _ => h.pure _

theorem projectEntries (h : Logic access writing P) (v : Value) (keys : List String)
    {modulators : List Stage} (hm : ∀ m ∈ modulators, m.child.Obeys P) :
    P (Stage.projectEntries v keys modulators) := by
  induction keys generalizing modulators with
  | nil => exact h.pure _
  | cons key keys ih =>
      cases modulators with
      | nil => exact h.bind (ih hm) fun _ => h.pure _
      | cons m rest =>
          have hrest := ih fun n hn => hm n (List.mem_cons_of_mem m hn)
          have hfirst := h.first (hm m List.mem_cons_self) v
          exact h.bind hfirst fun _ => h.bind hrest fun _ => h.pure _

/-! ## Steps -/

theorem setProperty (h : Logic access writing P) (hw : writing) (key : Key)
    (value element : Value) : P (Stage.setProperty access key value element) := by
  unfold Stage.setProperty
  split
  · split
    · exact h.throw rfl (by simp)
    · exact h.bind (h.change hw (.renameVertex _ _)) fun renamed => h.pure _
  · exact h.bind (h.change hw (.setVertexProperty _ _ _)) fun _ => h.pure _
  · exact h.bind (h.change hw (.setEdgeProperty _ _ _)) fun _ => h.pure _
  all_goals exact h.throw rfl (by simp)

theorem dropElement (h : Logic access writing P) (hw : writing) (element : Value) :
    P (Stage.dropElement access element) := by
  unfold Stage.dropElement
  split
  · exact h.bind (h.change hw (.removeVertex _)) fun _ => h.pure _
  · exact h.bind (h.change hw (.removeEdge _)) fun _ => h.pure _
  · exact h.pure _

theorem applyTo (h : Logic access writing P) {stage : Stage} (hs : stage.Obeys writing P)
    {modulators : List Stage} (hm : ∀ m ∈ modulators, m.child.Obeys P) (input : List Value) :
    P (stage.applyTo access modulators input) := by
  obtain ⟨step, child⟩ := stage
  obtain ⟨hwrites, hc⟩ := hs
  unfold Stage.applyTo
  cases step with
  | vertices ids => exact h.bind (h.look (.selectVertices ids)) fun _ => h.pure _
  | edges ids => exact h.bind (h.look (.selectEdges ids)) fun _ => h.pure _
  | addVertex label => exact h.collect (fun _ => h.addVertex (hwrites rfl) label) input
  | addEdge label => exact h.collect (fun v => h.addEdge (hwrites rfl) label hm (some [v])) input
  | property key value => exact h.each (h.setProperty (hwrites rfl) key value) input
  | hasLabel labels => exact h.look (.hasLabel labels input)
  | has key p => exact h.look (.has key p input)
  | hop direction labels => exact h.collect (fun v => h.look (.hop direction labels v)) input
  | incident side labels => exact h.collect (fun v => h.look (.incidentEdges side labels v)) input
  | endpoint side => exact h.collect (fun v => h.look (.endpoint side v)) input
  | suchThat condition => exact h.collect (fun v => h.bind (hc (some [v])) fun _ => h.pure _) input
  | valueMap tokens keys =>
      match modulators with
      | [] => exact h.each (fun v => h.look (.map _ (.valueMap tokens keys v))) input
      | [m] =>
          refine h.each (fun v => h.bind (h.look (.valueMap tokens keys v)) fun record => ?_) input
          exact h.bind (h.shapeEntries (hm m List.mem_cons_self) record) fun _ => h.pure _
      | _ :: _ :: _ => exact h.throw rfl (by simp)
  | values keys => exact h.collect (fun v => h.look (.map _ (.element _ v))) input
  | id => exact h.each (fun v => h.look (.map _ (.element _ v))) input
  | label => exact h.each (fun v => h.look (.map _ (.element _ v))) input
  | project keys =>
      simp only
      split
      · exact h.throw rfl (by simp)
      · exact h.each (fun v => h.bind (h.projectEntries v keys hm) fun _ => h.pure _) input
  | drop => exact h.collect (h.dropElement (hwrites rfl)) input
  | modulator role child => exact h.throw rfl (by simp)
  | fold | unfold | count | range _ _ | limit _ | dedup | constant _ => exact h.pure _

theorem applyToGraph (h : Logic access writing P) {stage : Stage} (hs : stage.Obeys writing P)
    {modulators : List Stage} (hm : ∀ m ∈ modulators, m.child.Obeys P) :
    P (stage.applyToGraph access modulators) := by
  unfold Stage.applyToGraph
  split
  next ids _ => exact h.look (.selectVertices ids)
  next ids _ => exact h.look (.selectEdges ids)
  next label hstep => exact h.addVertex (hs.writes (by rw [hstep]; rfl)) label
  next label hstep => exact h.addEdge (hs.writes (by rw [hstep]; rfl)) label hm none
  next => exact h.throw rfl (by simp)

/-- One step has the property if its child and those of its modulators do. -/
theorem apply (h : Logic access writing P) {stage : Stage} (hs : stage.Obeys writing P)
    {modulators : List Stage} (hm : ∀ m ∈ modulators, m.child.Obeys P) :
    (stage.apply access modulators).Obeys P := by
  intro start
  cases start with
  | none => exact h.applyToGraph hs hm
  | some input => exact h.applyTo hs hm input

theorem checkModulators (h : Logic access writing P) (step : Step) (modulators : List Stage) :
    P (Stage.checkModulators step modulators) := by
  unfold Stage.checkModulators
  split
  · exact h.throw rfl (by simp)
  · exact h.pure _

/-! ## Traversals -/

theorem run (h : Logic access writing P) {stages : List Stage}
    (hs : ∀ m ∈ stages, m.Obeys writing P) (taken : Bool) :
    Routine.Obeys P (Stage.run access taken stages) := by
  induction stages generalizing taken with
  | nil => exact fun start => h.pure _
  | cons stage rest ih =>
      have hrest : ∀ m ∈ rest, m.Obeys writing P := fun m hm => hs m (List.mem_cons_of_mem stage hm)
      have hm : ∀ m ∈ rest.takeWhile fun s => s.step.isModulator, m.child.Obeys P :=
        fun m hm => (hrest m ((List.takeWhile_sublist _).mem hm)).child
      intro start
      unfold Stage.run
      split
      · split
        · exact ih hrest true start
        · exact h.throw rfl (by simp)
      · refine h.bind (h.checkModulators _ _) fun _ => ?_
        refine h.bind (h.apply (hs stage List.mem_cons_self) hm start) fun results => ?_
        exact ih hrest true (some results)

mutual

/-- What the child of a step does has the property. -/
theorem childRoutine (h : Logic access writing P) (step : Step)
    (hw : step.isMutation = true → writing) : (step.childRoutine access).Obeys P := by
  cases step with
  | suchThat condition => exact h.routine condition hw
  | modulator role child => exact h.routine child hw
  | _ => exact fun _ => h.pure _

theorem stages (h : Logic access writing P) (steps : List Step)
    (hw : Step.anyMutation steps = true → writing) :
    ∀ m ∈ Step.stages access steps, m.Obeys writing P := by
  cases steps with
  | nil => simp [Step.stages]
  | cons step rest =>
      rw [Step.anyMutation, Bool.or_eq_true] at hw
      rw [Step.stages, List.forall_mem_cons]
      have hstep : step.isMutation = true → writing := fun hm => hw (.inl hm)
      exact ⟨⟨hstep, h.childRoutine step hstep⟩, h.stages rest fun hm => hw (.inr hm)⟩

/-- A whole traversal has the property, whatever it starts from. -/
theorem routine (h : Logic access writing P) (t : Traversal) (hw : t.isMutating = true → writing) :
    (t.routine access).Obeys P := by
  cases t with
  | mk anonymous steps => exact h.run (h.stages steps hw) false

end

end Logic

end GraphGateway
