import GraphGateway.Graph.Walk

/-!
# Evaluation

The state and the effects of evaluating a traversal: a graph, a supply of fresh
identifiers, and failures that leave behind whatever had already been written.
Writing is possible only under write access.
-/

namespace GraphGateway

/-- An endless supply of identifiers, and how many of them were taken. -/
structure IdSource where
  issue : Nat → String
  position : Nat

namespace IdSource

def next (ids : IdSource) : ElementId × IdSource :=
  (.text (ids.issue ids.position), { ids with position := ids.position + 1 })

end IdSource

structure Store where
  graph : Graph
  ids : IdSource

inductive Access where
  | read
  | write
  deriving DecidableEq

/-- A computation on a store that may fail; what was written before a failure stays. -/
abbrev Eval (α : Type) :=
  ExceptT EvaluationError (StateM Store) α

namespace Eval

def runOn {α : Type} (e : Eval α) (s : Store) : Except EvaluationError α × Store :=
  e.run.run s

def ofExcept {α : Type} : Except EvaluationError α → Eval α
  | .ok a => pure a
  | .error e => throw e

def look {α : Type} (read : Graph → Except EvaluationError α) : Eval α := do
  let s ← get
  ofExcept (read s.graph)

/-- Change the graph, which needs write access. -/
def change {α : Type} (access : Access) (write : Graph → Except EvaluationError (α × Graph)) :
    Eval α := do
  match access with
  | .read => throw .readOnly
  | .write =>
      let s ← get
      match write s.graph with
      | .error e => throw e
      | .ok (a, graph) =>
          set { s with graph }
          pure a

/-- Take a fresh identifier, which needs write access. -/
def fresh (access : Access) : Eval ElementId := do
  match access with
  | .read => throw .readOnly
  | .write =>
      let s ← get
      let (id, ids) := s.ids.next
      set { s with ids }
      pure id

def collect {α β : Type} (f : α → Eval (List β)) : List α → Eval (List β)
  | [] => pure []
  | a :: rest => do
      let first ← f a
      let others ← collect f rest
      pure (first ++ others)

def each {α β : Type} (f : α → Eval β) (items : List α) : Eval (List β) :=
  collect (fun a => do return [← f a]) items

end Eval

end GraphGateway
