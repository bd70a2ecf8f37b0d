import GraphGateway.Proofs.Evaluation.Compose

/-!
# Reachable stores

A store begins empty and changes by adding vertices and edges, by evaluating
traversals, and by drawing identifiers, in any order and whether or not an
operation fails. As long as no identifier is ever drawn twice, every store that
comes about this way holds a well-formed graph.
-/

namespace GraphGateway

inductive Operation where
  | addVertex (id : ElementId) (label : String) (properties : List (String × Value))
  | addEdge (label : String) (source target : ElementId)
  | submit (t : Traversal)
  /-- An identifier is drawn and given away. -/
  | draw

def Operation.perform : Operation → Store → Except EvaluationError (List Value) × Store
  | .addVertex id label properties, s =>
      match s.graph.addVertex id label properties with
      | .ok (v, graph) => (.ok [.vertex v], { s with graph })
      | .error err => (.error err, s)
  | .addEdge label source target, s =>
      let (outcome, next) := s.addEdge label source target
      (outcome.map fun e => [.edge e], next)
  | .submit t, s => s.submit t
  | .draw, s => (.ok [s.ids.next.1.toValue], { s with ids := s.ids.next.2 })

namespace Store

def start (issue : Nat → String) : Store :=
  ⟨.empty, ⟨issue, 0⟩⟩

/-- The store after operations, one after another; failures do not stop the rest. -/
def performAll (s : Store) : List Operation → Store
  | [] => s
  | op :: rest => (op.perform s).2.performAll rest

/-- A store that operations lead to, when no identifier is issued twice. -/
def Reachable (s : Store) : Prop :=
  ∃ issue ops, Function.Injective issue ∧ s = (start issue).performAll ops

/-- A supply that issues ever longer texts. -/
def unary (n : Nat) : String :=
  String.ofList (List.replicate n 'x')

theorem unary_injective : Function.Injective unary := by
  intro m n h
  have hlength := congrArg String.length h
  simpa [unary] using hlength

/-- A store in which one user follows another. -/
def follower : Store :=
  (start unary).performAll
    [.addVertex (.text "u1") "User" [("name", .string "Ann")],
      .addVertex (.text "u2") "User" [("name", .string "Bob")],
      .addEdge "FOLLOWS" (.text "u1") (.text "u2")]

theorem follower_reachable : follower.Reachable :=
  ⟨unary, _, unary_injective, rfl⟩

/-! ## The invariant -/

/-- The graph is well-formed, and its edges carry identifiers that were drawn already. -/
structure Sound (s : Store) : Prop where
  graph_wellFormed : s.graph.WellFormed
  issue_injective : Function.Injective s.ids.issue
  edges_issued : ∀ slot e, s.graph.edges.get? slot = some e →
    ∃ k, k < s.ids.position ∧ e.id = .text (s.ids.issue k)

namespace Sound

variable {s : Store}

theorem start {issue : Nat → String} (h : Function.Injective issue) : (start issue).Sound :=
  ⟨.empty, h, by simp [Store.start, Graph.empty]⟩

theorem next_fresh (hs : s.Sound) : s.graph.edgeIndex.contains s.ids.next.1 = false := by
  cases hc : s.graph.edgeIndex.contains s.ids.next.1 with
  | false => rfl
  | true =>
      obtain ⟨slot, hslot⟩ := Option.isSome_iff_exists.mp hc
      obtain ⟨e, he, hid⟩ := hs.graph_wellFormed.edges_indexed.live_of_get? hslot
      obtain ⟨k, hk, hissued⟩ := hs.edges_issued slot e he
      -- the next identifier would have been issued before
      have htext : s.ids.issue s.ids.position = s.ids.issue k := by
        rw [hid] at hissued
        exact ElementId.text.inj hissued
      have hpos := hs.issue_injective htext
      omega

/-- Changes that bring no edge with a new identifier. -/
theorem replace (hs : s.Sound) {graph : Graph} (hw : graph.WellFormed)
    (h : ∀ slot e, graph.edges.get? slot = some e →
      ∃ f, s.graph.edges.get? slot = some f ∧ e.id = f.id) : ({ s with graph } : Store).Sound := by
  refine ⟨hw, hs.issue_injective, fun slot e he => ?_⟩
  obtain ⟨f, hf, hid⟩ := h slot e he
  rw [hid]
  exact hs.edges_issued slot f hf

theorem draw (hs : s.Sound) : ({ s with ids := s.ids.next.2 } : Store).Sound := by
  refine ⟨hs.graph_wellFormed, hs.issue_injective, fun slot e he => ?_⟩
  obtain ⟨k, hk, hid⟩ := hs.edges_issued slot e he
  exact ⟨k, Nat.lt_succ_of_lt hk, hid⟩

theorem insertVertex (hs : s.Sound) {id : ElementId} {label : String} {v : Vertex} {graph : Graph}
    (h : s.graph.insertVertex id label = .ok (v, graph)) : ({ s with graph } : Store).Sound := by
  refine hs.replace (hs.graph_wellFormed.insertVertex h) fun slot e he => ⟨e, ?_, rfl⟩
  obtain ⟨-, -, rfl⟩ := Graph.insertVertex_eq_ok h
  exact he

theorem insertEdge (hs : s.Sound) {label : String} {source target : ElementId} {e : Edge}
    {graph : Graph} (h : s.graph.insertEdge s.ids.next.1 label source target = .ok (e, graph)) :
    (⟨graph, s.ids.next.2⟩ : Store).Sound := by
  have hw := hs.graph_wellFormed.insertEdge hs.next_fresh h
  have harena := hs.graph_wellFormed.edges_indexed.arena_wellFormed
  obtain ⟨a, b, -, -, -, rfl⟩ := Graph.insertEdge_eq_ok h
  refine ⟨hw, hs.issue_injective, fun slot f hf => ?_⟩
  rw [harena.get?_insert] at hf
  split at hf
  · cases hf
    exact ⟨s.ids.position, Nat.lt_succ_self _, rfl⟩
  · exact hs.draw.edges_issued slot f hf

theorem setVertexProperty (hs : s.Sound) {id : ElementId} {key : String} {value : Value}
    {graph : Graph} (h : s.graph.setVertexProperty id key value = .ok graph) :
    ({ s with graph } : Store).Sound := by
  refine hs.replace (hs.graph_wellFormed.setVertexProperty h) fun slot e he => ⟨e, ?_, rfl⟩
  obtain ⟨slot, -, rfl⟩ := Graph.setVertexProperty_eq_ok h
  exact he

theorem setEdgeProperty (hs : s.Sound) {id : ElementId} {key : String} {value : Value}
    {graph : Graph} (h : s.graph.setEdgeProperty id key value = .ok graph) :
    ({ s with graph } : Store).Sound := by
  refine hs.replace (hs.graph_wellFormed.setEdgeProperty h) fun slot e he => ?_
  obtain ⟨changed, -, rfl⟩ := Graph.setEdgeProperty_eq_ok h
  rw [Arena.get?_modify] at he
  split at he
  · obtain ⟨f, hf, rfl⟩ := Option.map_eq_some_iff.mp he
    exact ⟨f, hf, rfl⟩
  · exact ⟨e, he, rfl⟩

theorem renameVertex (hs : s.Sound) {old new : ElementId} {v : Vertex} {graph : Graph}
    (h : s.graph.renameVertex old new = .ok (v, graph)) : ({ s with graph } : Store).Sound := by
  refine hs.replace (hs.graph_wellFormed.renameVertex h) fun slot e he => ⟨e, ?_, rfl⟩
  obtain ⟨_, -, -, ⟨-, rfl⟩ | ⟨-, -, rfl⟩⟩ := Graph.renameVertex_eq_ok h
  · exact he
  · exact he

theorem removeVertex (hs : s.Sound) (id : ElementId) :
    ({ s with graph := s.graph.removeVertex id } : Store).Sound := by
  refine hs.replace (hs.graph_wellFormed.removeVertex id) fun slot e he => ⟨e, ?_, rfl⟩
  unfold Graph.removeVertex at he
  split at he
  · exact he
  · exact Arena.get?_of_eraseAll he

theorem removeEdge (hs : s.Sound) (id : ElementId) :
    ({ s with graph := s.graph.removeEdge id } : Store).Sound := by
  refine hs.replace (hs.graph_wellFormed.removeEdge id) fun slot e he => ⟨e, ?_, rfl⟩
  unfold Graph.removeEdge at he
  split at he
  · exact he
  · exact Arena.get?_of_erase he

theorem invariant (access : Access) : Invariant access Sound where
  wellFormed := fun _ hs => hs.graph_wellFormed
  draw := fun _ _ hs => hs.draw
  insertVertex := fun _ _ _ _ _ hs h => hs.draw.insertVertex h
  insertEdge := fun _ _ _ _ _ _ _ hs h => hs.insertEdge h
  setVertexProperty := fun _ _ _ _ _ _ hs h => hs.setVertexProperty h
  setEdgeProperty := fun _ _ _ _ _ _ hs h => hs.setEdgeProperty h
  renameVertex := fun _ _ _ _ _ _ hs h => hs.renameVertex h
  removeVertex := fun _ _ id hs => hs.removeVertex id
  removeEdge := fun _ _ id hs => hs.removeEdge id

end Sound

/-! ## Runs -/

theorem setVertexProperties_error {g : Graph} {id : ElementId} {properties : List (String × Value)}
    {err : EvaluationError} (h : g.setVertexProperties id properties = .error err) :
    err.isOrdinary = true := by
  induction properties generalizing g with
  | nil => cases h
  | cons head rest ih =>
      obtain ⟨key, value⟩ := head
      unfold Graph.setVertexProperties at h
      cases hp : g.setVertexProperty id key value with
      | error e =>
          rw [hp] at h
          cases h
          exact Invariant.setVertexProperty_error hp
      | ok middle =>
          rw [hp] at h
          exact ih h

theorem addVertex_error {g : Graph} {id : ElementId} {label : String}
    {properties : List (String × Value)} {err : EvaluationError}
    (h : g.addVertex id label properties = .error err) : err.isOrdinary = true := by
  unfold Graph.addVertex at h
  cases hi : g.insertVertex id label with
  | error e =>
      rw [hi] at h
      cases h
      exact Invariant.insertVertex_error hi
  | ok added =>
      rw [hi] at h
      simp only [bind, Except.bind] at h
      cases hp : added.2.setVertexProperties id properties with
      | error e =>
          simp only [hp] at h
          cases h
          exact setVertexProperties_error hp
      | ok done =>
          simp only [hp] at h
          cases h

/-- A kind of store that no operation leaves: also a vertex may be added under any identifier. -/
structure Preserved (I : Store → Prop) : Prop where
  invariant : ∀ access, Invariant access I
  insertVertex : ∀ s id label v graph, I s → s.graph.insertVertex id label = .ok (v, graph) →
    I { s with graph }

namespace Preserved

variable {I : Store → Prop} {s : Store}

theorem setVertexProperties (h : Preserved I) (properties : List (String × Value)) {g : Graph}
    (hs : I { s with graph := g }) {id : ElementId} {graph : Graph}
    (hset : g.setVertexProperties id properties = .ok graph) : I { s with graph } := by
  induction properties generalizing g with
  | nil => cases hset; exact hs
  | cons head rest ih =>
      obtain ⟨key, value⟩ := head
      unfold Graph.setVertexProperties at hset
      cases hp : g.setVertexProperty id key value with
      | error err => rw [hp] at hset; cases hset
      | ok middle =>
          rw [hp] at hset
          have hwrite := h.invariant .write
          have hnext : I { s with graph := middle } :=
            hwrite.setVertexProperty rfl { s with graph := g } id key value middle hs hp
          exact ih hnext hset

theorem addVertex (h : Preserved I) (hs : I s) {id : ElementId} {label : String}
    {properties : List (String × Value)} {v : Vertex} {graph : Graph}
    (hadd : s.graph.addVertex id label properties = .ok (v, graph)) : I { s with graph } := by
  obtain ⟨middle, hi, hp⟩ := Graph.addVertex_eq_ok hadd
  exact h.setVertexProperties properties (h.insertVertex s id label v middle hs hi) hp

/-- One operation keeps a store of the kind and fails for ordinary reasons only. -/
theorem perform (h : Preserved I) (hs : I s) (op : Operation) :
    I (op.perform s).2 ∧ ∀ err, (op.perform s).1 = .error err → err.isOrdinary = true := by
  have hwrite := h.invariant .write
  cases op with
  | addVertex id label properties =>
      simp only [Operation.perform]
      cases hadd : s.graph.addVertex id label properties with
      | error e => exact ⟨hs, fun err he => by cases he; exact addVertex_error hadd⟩
      | ok found => exact ⟨h.addVertex hs hadd, fun err he => by cases he⟩
  | addEdge label source target =>
      simp only [Operation.perform, Store.addEdge]
      cases hadd : s.graph.insertEdge s.ids.next.1 label source target with
      | error e =>
          refine ⟨hwrite.draw rfl s hs, fun err he => ?_⟩
          cases he
          exact Invariant.insertEdge_error hadd
      | ok found =>
          exact ⟨hwrite.insertEdge rfl s label source target found.1 found.2 hs hadd,
            fun err he => by cases he⟩
  | submit t =>
      simp only [Operation.perform, Store.submit]
      split
      · exact ⟨hs, fun err he => by cases he; rfl⟩
      · exact (h.invariant (accessFor t)).routine t none s hs
  | draw => exact ⟨hwrite.draw rfl s hs, fun err he => by cases he⟩

theorem performAll (h : Preserved I) (hs : I s) (ops : List Operation) : I (s.performAll ops) := by
  induction ops generalizing s with
  | nil => exact hs
  | cons op rest ih => exact ih (h.perform hs op).1

/-- What holds of empty stores and is preserved holds of every store that comes about. -/
theorem reachable (h : Preserved I) (hstart : ∀ issue, Function.Injective issue → I (start issue))
    (hs : s.Reachable) : I s := by
  obtain ⟨issue, ops, hinjective, rfl⟩ := hs
  exact h.performAll (hstart issue hinjective) ops

end Preserved

theorem Sound.preserved : Preserved Sound where
  invariant := Sound.invariant
  insertVertex := fun _ _ _ _ _ hs h => hs.insertVertex h

/-- One operation keeps a store sound and fails for ordinary reasons only. -/
theorem Sound.perform {s : Store} (hs : s.Sound) (op : Operation) :
    (op.perform s).2.Sound ∧ ∀ err, (op.perform s).1 = .error err → err.isOrdinary = true :=
  Sound.preserved.perform hs op

theorem Sound.submit {s next : Store} (hs : s.Sound) {t : Traversal}
    {outcome : Except EvaluationError (List Value)} (h : s.submit t = (outcome, next)) :
    next.Sound := by
  have hnext := (hs.perform (.submit t)).1
  rwa [Operation.perform, h] at hnext

theorem Sound.performAll {s : Store} (hs : s.Sound) (ops : List Operation) :
    (s.performAll ops).Sound :=
  Sound.preserved.performAll hs ops

theorem Reachable.sound {s : Store} (h : s.Reachable) : s.Sound :=
  Sound.preserved.reachable (fun _ => .start) h

end Store

end GraphGateway
