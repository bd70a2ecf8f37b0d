import GraphGateway.Proofs.Evaluation.ReadOnly

/-!
# What comes out of a write

A traversal that writes and then lets nothing out looks to its caller like one
that wrote nothing. What a list of steps lets out is estimated step by step, from
the steps alone: nothing is known, there is some value, or there is an edge that
exists, whose ends can be walked to. A traversal accounts for its writes if, by
this estimate, some value comes out whenever one of its steps had something to
write for. It comes back empty only when it wrote nothing.
-/

namespace GraphGateway

/-! ## Estimates -/

/-- What is known of the values that reach a step or come out of it. -/
inductive Emission where
  | unknown
  /-- There is a value. -/
  | something
  /-- There is an edge that still exists. -/
  | edge
  deriving DecidableEq

/-- What an estimate says of the values a step works on; a step that starts at the graph has
some. -/
def Emission.Holds (g : Graph) : Emission → Option (List Value) → Prop
  | .unknown, _ => True
  | .something, start => start ≠ some []
  | .edge, start =>
      ∃ values e, start = some values ∧ .edge e ∈ values ∧ g.edgeIndex.contains e.id = true

namespace Emission

variable {g : Graph} {e : Emission} {start : Option (List Value)}

theorem Holds.start_ne (h : e.Holds g start) (he : e ≠ .unknown) : start ≠ some [] := by
  cases e with
  | unknown => exact absurd rfl he
  | something => exact h
  | edge =>
      obtain ⟨values, edge, rfl, hmem, -⟩ := h
      intro hnil
      cases hnil
      cases hmem

theorem holds_something {values : List Value} (h : values ≠ []) :
    something.Holds g (some values) :=
  fun hnil => h (Option.some.inj hnil)

end Emission

namespace Step

/-- Whether a step lets something out whatever reaches it. -/
def gathers : Step → Bool
  | .fold | .count => true
  | _ => false

/-- Whether a step lets something out when something reaches it. -/
def passes : Step → Bool
  | .addVertex _ | .addEdge _ | .property .. | .valueMap .. | .id | .label | .fold | .count
  | .project _ | .dedup | .constant _ => true
  | .limit size => decide (0 < size)
  | .range low high => decide (low ≤ 0) && decide (high ≠ 0)
  | _ => false

def emits (step : Step) (e : Emission) : Emission :=
  match e with
  | .unknown => if step.gathers then .something else .unknown
  | .something =>
      match step with
      | .addEdge _ => .edge
      | _ => if step.passes then .something else .unknown
  | .edge =>
      match step with
      | .addEdge _ | .property .. => .edge
      | .endpoint _ => .something
      | _ => if step.passes then .something else .unknown

/-- What comes out of a list of steps; modulators belong to the steps before them. -/
def emission (e : Emission) : List Step → Emission
  | [] => e
  | step :: rest => if step.isModulator then emission e rest else emission (step.emits e) rest

/-- Whether a step may write, by itself, in its child or in the modulators that follow it. -/
def mayWrite (step : Step) (rest : List Step) : Bool :=
  step.isMutation || anyMutation (rest.takeWhile isModulator)

/-- Whether some value comes out whenever one of the steps had something to write for. -/
def accountsForWrites : List Step → Bool
  | [] => true
  | step :: rest =>
      (step.isModulator || !step.mayWrite rest ||
        decide (emission .something (step :: rest) ≠ .unknown)) && accountsForWrites rest

end Step

namespace Stage

variable {access : Access} {stage : Stage} {modulators : List Stage} {input out : List Value}
  {s next : Store}

/-! ## Single steps -/

theorem checkModulators_leads {step : Step} {u : Unit}
    (h : (checkModulators step modulators).Leads s u next) : next = s := by
  unfold checkModulators at h
  split at h
  · exact absurd h Eval.not_leads_throw
  · exact (Eval.leads_pure_iff.mp h).2

/-- Where nothing arrives, nothing is written. -/
theorem applyTo_nil (h : (stage.applyTo access modulators []).Leads s out next) : next = s := by
  cases hstep : stage.step
  all_goals simp only [applyTo, hstep] at h
  case vertices ids | edges ids =>
    obtain ⟨found, middle, hfound, hpure⟩ := Eval.leads_bind_iff.mp h
    obtain ⟨-, rfl⟩ := Eval.leads_look_iff.mp hfound
    exact (Eval.leads_pure_iff.mp hpure).2
  case hasLabel labels => exact (Eval.leads_look_iff.mp h).2
  case has key p => exact (Eval.leads_look_iff.mp h).2
  case valueMap tokens keys =>
    split at h
    · exact (Eval.leads_pure_iff.mp h).2
    · exact (Eval.leads_pure_iff.mp h).2
    · exact absurd h Eval.not_leads_throw
  case project keys =>
    split at h
    · exact absurd h Eval.not_leads_throw
    · exact (Eval.leads_pure_iff.mp h).2
  case modulator role child => exact absurd h Eval.not_leads_throw
  all_goals exact (Eval.leads_pure_iff.mp h).2

theorem addVertex_leads {label : String} (h : (addVertex access label).Leads s out next) :
    ∃ v, out = [.vertex v] := by
  obtain ⟨id, drawn, -, h⟩ := Eval.leads_bind_iff.mp h
  obtain ⟨v, added, -, h⟩ := Eval.leads_bind_iff.mp h
  exact ⟨v, (Eval.leads_pure_iff.mp h).1⟩

/-- An edge that was just added exists. -/
theorem addEdge_leads {label : String} {start : Option (List Value)}
    (h : (addEdge access label modulators start).Leads s out next) :
    ∃ e, out = [.edge e] ∧ next.graph.edgeIndex.contains e.id = true := by
  obtain ⟨source, first, -, h⟩ := Eval.leads_bind_iff.mp h
  obtain ⟨target, second, -, h⟩ := Eval.leads_bind_iff.mp h
  obtain ⟨id, drawn, -, h⟩ := Eval.leads_bind_iff.mp h
  obtain ⟨e, added, hadd, h⟩ := Eval.leads_bind_iff.mp h
  obtain ⟨rfl, rfl⟩ := Eval.leads_pure_iff.mp h
  obtain ⟨graph, hgraph, rfl⟩ := Eval.leads_change hadd
  obtain ⟨a, b, -, -, rfl, rfl⟩ := Graph.insertEdge_eq_ok hgraph
  refine ⟨_, rfl, ?_⟩
  simp [OrderedMap.contains, OrderedMap.get?_insert]

theorem distinct_ne_nil (h : input ≠ []) : distinct [] input ≠ [] := by
  cases input with
  | nil => exact absurd rfl h
  | cons v rest => simp [distinct]

theorem window_ne_nil {low high : Int64} (hlow : low ≤ 0) (hhigh : high ≠ 0) (h : input ≠ []) :
    window low high input ≠ [] := by
  have hstart : max low.toInt 0 = 0 := by
    have hle : low.toInt ≤ 0 := Int64.le_iff_toInt_le.mp hlow
    omega
  have hne : high.toInt ≠ 0 := fun heq => hhigh (Int64.toInt_inj.mp heq)
  unfold window
  rw [hstart]
  simp only [Int.toNat_zero, List.drop_zero, Int.sub_zero]
  split
  · exact h
  · have hpos : high.toInt.toNat ≠ 0 := by omega
    exact fun hnil => (List.take_eq_nil_iff.mp hnil).elim hpos h

/-- What passes something on lets something out of a step that values reach. -/
theorem applyTo_passes (hpasses : stage.step.passes = true) (hne : input ≠ [])
    (h : (stage.applyTo access modulators input).Leads s out next) : out ≠ [] := by
  cases hstep : stage.step
  all_goals rw [hstep] at hpasses
  -- only the steps that pass something on are left
  all_goals try cases hpasses
  all_goals simp only [applyTo, hstep] at h
  case addVertex label =>
    refine h.collect_ne_nil hne fun _ _ first _ hfirst => ?_
    obtain ⟨v, rfl⟩ := addVertex_leads hfirst
    exact List.cons_ne_nil _ _
  case addEdge label =>
    refine h.collect_ne_nil hne fun _ _ first _ hfirst => ?_
    obtain ⟨e, rfl, -⟩ := addEdge_leads hfirst
    exact List.cons_ne_nil _ _
  case valueMap tokens keys =>
    split at h
    · exact h.each_ne_nil hne
    · exact h.each_ne_nil hne
    · exact absurd h Eval.not_leads_throw
  case project keys =>
    split at h
    · exact absurd h Eval.not_leads_throw
    · exact h.each_ne_nil hne
  case range low high =>
    obtain ⟨rfl, -⟩ := Eval.leads_pure_iff.mp h
    rw [Step.passes, Bool.and_eq_true, decide_eq_true_eq, decide_eq_true_eq] at hpasses
    exact window_ne_nil hpasses.1 hpasses.2 hne
  case limit size =>
    obtain ⟨rfl, -⟩ := Eval.leads_pure_iff.mp h
    have hpos : 0 < size.toInt := Int64.lt_iff_toInt_lt.mp (of_decide_eq_true hpasses)
    have htake : size.toInt.toNat ≠ 0 := by omega
    exact fun hnil => (List.take_eq_nil_iff.mp hnil).elim htake hne
  case dedup =>
    obtain ⟨rfl, -⟩ := Eval.leads_pure_iff.mp h
    exact distinct_ne_nil hne
  case constant value =>
    obtain ⟨rfl, -⟩ := Eval.leads_pure_iff.mp h
    simpa using hne
  case fold | count =>
    obtain ⟨rfl, -⟩ := Eval.leads_pure_iff.mp h
    exact List.cons_ne_nil _ _
  all_goals exact h.each_ne_nil hne

theorem dropElement_leads {v : Value} (h : (dropElement access v).Leads s out next) : out = [] := by
  unfold dropElement at h
  split at h
  · obtain ⟨u, removed, -, hpure⟩ := Eval.leads_bind_iff.mp h
    exact (Eval.leads_pure_iff.mp hpure).1
  · obtain ⟨u, removed, -, hpure⟩ := Eval.leads_bind_iff.mp h
    exact (Eval.leads_pure_iff.mp hpure).1
  · exact (Eval.leads_pure_iff.mp h).1

/-! ## Edges on their way -/

theorem setProperty_edgeIndex {key : Key} {value element v : Value}
    (h : (setProperty access key value element).Leads s v next) :
    next.graph.edgeIndex = s.graph.edgeIndex := by
  unfold setProperty at h
  split at h
  · split at h
    · exact absurd h Eval.not_leads_throw
    · obtain ⟨w, renamed, hchange, hpure⟩ := Eval.leads_bind_iff.mp h
      obtain ⟨-, rfl⟩ := Eval.leads_pure_iff.mp hpure
      obtain ⟨graph, hgraph, rfl⟩ := Eval.leads_change hchange
      obtain ⟨_, -, -, ⟨-, rfl⟩ | ⟨-, -, rfl⟩⟩ := Graph.renameVertex_eq_ok hgraph
      · rfl
      · rfl
  · obtain ⟨u, written, hchange, hpure⟩ := Eval.leads_bind_iff.mp h
    obtain ⟨-, rfl⟩ := Eval.leads_pure_iff.mp hpure
    obtain ⟨graph, hset, rfl⟩ := Eval.leads_change_unit hchange
    obtain ⟨_, -, rfl⟩ := Graph.setVertexProperty_eq_ok hset
    rfl
  · obtain ⟨u, written, hchange, hpure⟩ := Eval.leads_bind_iff.mp h
    obtain ⟨-, rfl⟩ := Eval.leads_pure_iff.mp hpure
    obtain ⟨graph, hset, rfl⟩ := Eval.leads_change_unit hchange
    obtain ⟨_, -, rfl⟩ := Graph.setEdgeProperty_eq_ok hset
    rfl
  all_goals exact absurd h Eval.not_leads_throw

/-- Writing to an edge lets the edge out. -/
theorem setProperty_edge {key : Key} {value v : Value} {e : Edge}
    (h : (setProperty access key value (.edge e)).Leads s v next) : v = .edge e := by
  cases key with
  | token t => exact absurd h Eval.not_leads_throw
  | name k =>
      obtain ⟨u, written, -, hpure⟩ := Eval.leads_bind_iff.mp h
      exact (Eval.leads_pure_iff.mp hpure).1

theorem property_keeps_edges {key : Key} {value : Value}
    (h : (Eval.each (setProperty access key value) input).Leads s out next) :
    next.graph.edgeIndex = s.graph.edgeIndex ∧ ∀ e, Value.edge e ∈ input → Value.edge e ∈ out := by
  obtain ⟨hindex, hitems⟩ := h.collect_through
    (R := fun s t => t.graph.edgeIndex = s.graph.edgeIndex) (fun _ => rfl)
    (fun _ _ _ hst htu => htu.trans hst) (fun a s first next hone => by
      obtain ⟨v, middle, hset, hpure⟩ := Eval.leads_bind_iff.mp hone
      obtain ⟨-, rfl⟩ := Eval.leads_pure_iff.mp hpure
      exact setProperty_edgeIndex hset)
  refine ⟨hindex, fun e he => ?_⟩
  obtain ⟨before, after, found, -, hone, -, hsubset⟩ := hitems _ he
  obtain ⟨v, middle, hset, hpure⟩ := Eval.leads_bind_iff.mp hone
  obtain ⟨rfl, -⟩ := Eval.leads_pure_iff.mp hpure
  rw [setProperty_edge hset] at hsubset
  exact hsubset List.mem_cons_self

/-- From an edge that exists one gets to its ends. -/
theorem endpoint_of_edge (hw : s.graph.WellFormed) {side : Side} {e : Edge}
    (he : Value.edge e ∈ input) (hlive : s.graph.edgeIndex.contains e.id = true)
    (h : (Eval.collect (fun v => Eval.look fun g => g.endpoint side v) input).Leads s out next) :
    out ≠ [] := by
  obtain ⟨-, hitems⟩ := h.collect_through (R := fun s t => t = s) (fun _ => rfl)
    (fun _ _ _ hst htu => htu.trans hst)
    (fun a s first next hone => (Eval.leads_look_iff.mp hone).2)
  obtain ⟨before, after, found, rfl, hone, -, hsubset⟩ := hitems _ he
  obtain ⟨hfound, -⟩ := Eval.leads_look_iff.mp hone
  obtain ⟨slot, hslot⟩ := Option.isSome_iff_exists.mp hlive
  obtain ⟨r, hr, -⟩ := hw.edges_indexed.live_of_get? hslot
  obtain ⟨w, hvertex⟩ := hw.anchor_live slot r hr side
  have hend : before.graph.endpoint side (.edge e) = .ok [.vertex w.reference] := by
    simp only [Graph.endpoint, hslot, Option.bind_some, hr, Graph.vertexAt_of_live hvertex,
      Except.map]
  rw [hend] at hfound
  cases hfound
  intro hout
  rw [hout] at hsubset
  exact List.cons_ne_nil _ _ (List.subset_nil.mp hsubset)

/-! ## Estimates are right -/

section Estimates

variable {start : Option (List Value)}

theorem apply_gathers (hgathers : stage.step.gathers = true)
    (h : (stage.apply access modulators start).Leads s out next) : out ≠ [] := by
  cases start with
  | none =>
      cases hstep : stage.step
      all_goals rw [hstep] at hgathers
      all_goals try cases hgathers
      all_goals simp only [apply, applyToGraph, hstep] at h
      all_goals exact absurd h Eval.not_leads_throw
  | some input =>
      cases hstep : stage.step
      all_goals rw [hstep] at hgathers
      all_goals try cases hgathers
      all_goals simp only [apply, applyTo, hstep] at h
      all_goals
        obtain ⟨rfl, -⟩ := Eval.leads_pure_iff.mp h
        exact List.cons_ne_nil _ _

theorem apply_passes (hpasses : stage.step.passes = true) (hne : start ≠ some [])
    (h : (stage.apply access modulators start).Leads s out next) : out ≠ [] := by
  cases start with
  | some input => exact applyTo_passes hpasses (fun hnil => hne (congrArg some hnil)) h
  | none =>
      simp only [apply, applyToGraph] at h
      split at h
      · next hstep => rw [hstep] at hpasses; cases hpasses
      · next hstep => rw [hstep] at hpasses; cases hpasses
      · obtain ⟨v, rfl⟩ := addVertex_leads h
        exact List.cons_ne_nil _ _
      · obtain ⟨e, rfl, -⟩ := addEdge_leads h
        exact List.cons_ne_nil _ _
      · exact absurd h Eval.not_leads_throw

theorem apply_addEdge {label : String} (hstep : stage.step = .addEdge label)
    (hne : start ≠ some []) (h : (stage.apply access modulators start).Leads s out next) :
    Emission.edge.Holds next.graph (some out) := by
  cases start with
  | none =>
      simp only [apply, applyToGraph, hstep] at h
      obtain ⟨e, rfl, hlive⟩ := addEdge_leads h
      exact ⟨_, e, rfl, List.mem_cons_self, hlive⟩
  | some input =>
      simp only [apply, applyTo, hstep] at h
      obtain ⟨v, -, before, last, hlast, hsubset⟩ :=
        h.collect_last fun hnil => hne (congrArg some hnil)
      obtain ⟨e, rfl, hlive⟩ := addEdge_leads hlast
      exact ⟨out, e, rfl, hsubset List.mem_cons_self, hlive⟩

/-- What a step lets out is as estimated, whatever it starts from. -/
theorem apply_emits (hw : s.graph.WellFormed) {e : Emission} (he : e.Holds s.graph start)
    (h : (stage.apply access modulators start).Leads s out next) :
    (stage.step.emits e).Holds next.graph (some out) := by
  cases e with
  | unknown =>
      simp only [Step.emits]
      split
      · next hgathers => exact Emission.holds_something (apply_gathers hgathers h)
      · trivial
  | something =>
      simp only [Step.emits]
      split
      · next label hstep => exact apply_addEdge hstep he h
      · split
        · next hpasses => exact Emission.holds_something (apply_passes hpasses he h)
        · trivial
  | edge =>
      have hne : start ≠ some [] := he.start_ne (by decide)
      obtain ⟨values, edge, rfl, hmem, hlive⟩ := he
      simp only [Step.emits]
      split
      · next label hstep => exact apply_addEdge hstep hne h
      · next key value hstep =>
          simp only [apply, applyTo, hstep] at h
          obtain ⟨hindex, hkept⟩ := property_keeps_edges h
          exact ⟨out, edge, rfl, hkept edge hmem, by rw [hindex]; exact hlive⟩
      · next side hstep =>
          simp only [apply, applyTo, hstep] at h
          exact Emission.holds_something (endpoint_of_edge hw hmem hlive h)
      · split
        · next hpasses => exact Emission.holds_something (apply_passes hpasses hne h)
        · trivial

end Estimates

end Stage

namespace Step

variable {access : Access} {s next : Store} {out : List Value}

/-! ## Lists of steps -/

theorem stages_takeWhile (steps : List Step) :
    (stages access steps).takeWhile (fun stage => stage.step.isModulator) =
      stages access (steps.takeWhile isModulator) := by
  induction steps with
  | nil => simp [stages]
  | cons step rest ih =>
      cases h : step.isModulator with
      | true => simp [stages, h, ih]
      | false => simp [stages, h]

/-- A step as it is run, with the modulators among the steps that follow it. -/
def applied (access : Access) (step : Step) (rest : List Step) : Routine :=
  Stage.apply access ⟨step, step.childRoutine access⟩ (stages access (rest.takeWhile isModulator))

section Running

variable {step : Step} {rest : List Step} {taken : Bool} {start : Option (List Value)}

/-- To run a step that is no modulator is to apply it and to run the others on its results. -/
theorem run_leads (hstep : step.isModulator = false)
    (h : (Stage.run access taken (stages access (step :: rest)) start).Leads s out next) :
    ∃ results middle, (applied access step rest start).Leads s results middle ∧
      (Stage.run access true (stages access rest) (some results)).Leads middle out next := by
  rw [stages, Stage.run_step hstep, stages_takeWhile] at h
  obtain ⟨u, checked, hcheck, hrun⟩ := Eval.leads_bind_iff.mp h
  obtain rfl := Stage.checkModulators_leads hcheck
  exact Eval.leads_bind_iff.mp hrun

/-- Modulators are passed over, except at the front. -/
theorem run_modulator_leads (hstep : step.isModulator = true)
    (h : (Stage.run access taken (stages access (step :: rest)) start).Leads s out next) :
    (Stage.run access true (stages access rest) start).Leads s out next := by
  rw [stages, Stage.run_modulator hstep] at h
  cases taken with
  | true => exact h
  | false => exact absurd h Eval.not_leads_throw

theorem applied_sound (hs : s.Sound) (h : (applied access step rest start).Leads s out next) :
    next.Sound := by
  have hlogic := (Store.Sound.invariant access).logic
  have hstage : Stage.Obeys True (Eval.Keeps Store.Sound) ⟨step, step.childRoutine access⟩ :=
    ⟨fun _ => trivial, hlogic.childRoutine step fun _ => trivial⟩
  have hmodulators := hlogic.stages (rest.takeWhile isModulator) fun _ => trivial
  exact h.keeps (hlogic.apply hstage (fun m hm => (hmodulators m hm).child) start) hs

theorem applied_access (hread : step.mayWrite rest = false) :
    applied .read step rest = applied .write step rest := by
  obtain ⟨hstep, hmodulators⟩ := Bool.or_eq_false_iff.mp hread
  unfold applied
  rw [childRoutine_access step hstep, stages_access _ hmodulators]
  exact Stage.apply_access hstep _

/-- A step that may not write leaves the store as it is, under write access too. -/
theorem applied_unwritten (hread : step.mayWrite rest = false)
    (h : (applied .write step rest start).Leads s out next) : next = s := by
  obtain ⟨hstep, hmodulators⟩ := Bool.or_eq_false_iff.mp hread
  have hlogic := Eval.ReadsOnly.logic
  have hwrites := Bool.eq_false_iff.mp hstep
  have hstages := hlogic.stages _ (Bool.eq_false_iff.mp hmodulators)
  have hreads : (applied .read step rest).Obeys Eval.ReadsOnly :=
    hlogic.apply ⟨hwrites, hlogic.childRoutine step hwrites⟩ fun m hm => (hstages m hm).child
  have hsame := (hreads start s).1
  rw [← applied_access hread] at h
  rwa [h] at hsame

end Running

/-- What comes out of a list of steps is as estimated. -/
theorem run_emission (steps : List Step) {e : Emission} {taken : Bool} {input : List Value}
    (hs : s.Sound) (he : e.Holds s.graph (some input))
    (h : (Stage.run access taken (stages access steps) (some input)).Leads s out next) :
    (emission e steps).Holds next.graph (some out) := by
  induction steps generalizing e taken input s with
  | nil =>
      obtain ⟨rfl, rfl⟩ := Eval.leads_pure_iff.mp h
      exact he
  | cons step rest ih =>
      cases hstep : step.isModulator with
      | true =>
          rw [emission, if_pos hstep]
          exact ih hs he (run_modulator_leads hstep h)
      | false =>
          obtain ⟨results, middle, happlied, hrest⟩ := run_leads hstep h
          have hresults := Stage.apply_emits hs.graph_wellFormed he happlied
          rw [emission, if_neg (by simp [hstep])]
          exact ih (applied_sound hs happlied) hresults hrest

/-- Steps that account for their writes and let nothing out wrote nothing. -/
theorem run_unwritten (steps : List Step) {taken : Bool} {start : Option (List Value)}
    (hs : s.Sound) (haccounts : accountsForWrites steps = true)
    (h : (Stage.run .write taken (stages .write steps) start).Leads s [] next) : next = s := by
  induction steps generalizing taken start s with
  | nil => exact (Eval.leads_pure_iff.mp h).2
  | cons step rest ih =>
      obtain ⟨hfirst, hothers⟩ := Bool.and_eq_true_iff.mp haccounts
      cases hstep : step.isModulator with
      | true => exact ih hs hothers (run_modulator_leads hstep h)
      | false =>
          obtain ⟨results, middle, happlied, hrest⟩ := run_leads hstep h
          have hmiddle : middle = s := by
            cases hwrites : step.mayWrite rest with
            | false => exact applied_unwritten hwrites happlied
            | true =>
                by_cases hnone : start = some []
                · subst hnone
                  exact Stage.applyTo_nil happlied
                · -- something would come out of all the steps
                  have hknown : emission .something (step :: rest) ≠ .unknown := by
                    simpa [hstep, hwrites] using hfirst
                  rw [emission, if_neg (by simp [hstep])] at hknown
                  have hresults := Stage.apply_emits (e := .something) hs.graph_wellFormed hnone
                    happlied
                  have hout := run_emission rest (applied_sound hs happlied) hresults hrest
                  exact absurd rfl (hout.start_ne hknown)
          subst hmiddle
          exact ih hs hothers hrest

/-! ## Removals -/

/-- Whatever is removed, nothing is let out. -/
theorem run_drop_leads (steps : List Step) {taken : Bool} {start : Option (List Value)}
    (h : (Stage.run access taken (stages access (steps ++ [.drop])) start).Leads s out next) :
    out = [] := by
  induction steps generalizing taken start s with
  | nil =>
      obtain ⟨results, middle, happlied, hrest⟩ := run_leads rfl h
      obtain ⟨rfl, -⟩ := Eval.leads_pure_iff.mp hrest
      cases start with
      | none => exact absurd happlied Eval.not_leads_throw
      | some input =>
          exact Eval.Leads.collect_eq_nil happlied fun v _ _ _ hv => Stage.dropElement_leads hv
  | cons step rest ih =>
      cases hstep : step.isModulator with
      | true => exact ih (run_modulator_leads hstep h)
      | false =>
          obtain ⟨results, middle, -, hrest⟩ := run_leads hstep h
          exact ih hrest

end Step

namespace Store

/-- A traversal that accounts for its writes comes back empty only if it wrote nothing. -/
theorem submit_unwritten {s next : Store} (hs : s.Sound) {t : Traversal}
    (haccounts : Step.accountsForWrites t.steps = true) (h : s.submit t = (.ok [], next)) :
    next = s := by
  cases hmutating : t.isMutating with
  | false =>
      have hsame := submit_unchanged hs.graph_wellFormed hmutating
      rwa [h] at hsame
  | true =>
      have haccess : accessFor t = .write := by simp [accessFor, hmutating]
      unfold submit at h
      split at h
      · cases h
      · rw [haccess, Traversal.routine_eq] at h
        exact Step.run_unwritten t.steps hs haccounts h

/-- A walk on from what was written may lead nowhere; walking to the end of a new edge does not. -/
example :
    Step.accountsForWrites [.addVertex "User", .hop .both []] = false ∧
      Step.accountsForWrites [.addEdge "FOLLOWS", .endpoint .incoming] = true :=
  ⟨rfl, rfl⟩

end Store

end GraphGateway
